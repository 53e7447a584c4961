import ElasticNet.Proofs.Exact
import ElasticNet.Proofs.Params.Fields
import ElasticNet.Proofs.Path.Checked

namespace ElasticNet

def Yields {β : Type} (Holds : β → Prop) (result : Except Error β) : Prop :=
  ∀ answer, result = .ok answer → Holds answer

namespace Yields

variable {β γ : Type} {Holds : β → Prop}

theorem ok {answer : β} (holds : Holds answer) : Yields Holds (.ok answer) := by
  rintro _ ⟨⟩
  exact holds

theorem error (error : Error) : Yields Holds (.error error) := nofun

theorem bind {Given : γ → Prop} {first : Except Error γ} {second : γ → Except Error β}
    (starts : Yields Given first) (goesOn : ∀ answer, Given answer → Yields Holds (second answer)) :
    Yields Holds (first >>= second) := by
  cases first with
  | ok answer => exact goesOn answer (starts answer rfl)
  | error error => exact nofun

theorem bind_of_all {first : Except Error γ} {second : γ → Except Error β}
    (goesOn : ∀ answer, Yields Holds (second answer)) : Yields Holds (first >>= second) := by
  have any : Yields (fun _ => True) first := fun _ _ => trivial
  exact any.bind fun answer _ => goesOn answer

theorem ite {condition : Prop} [Decidable condition] {first second : Except Error β}
    (holds : Yields Holds first) (fails : Yields Holds second) :
    Yields Holds (if condition then first else second) :=
  iteInduction (fun _ => holds) fun _ => fails

end Yields

namespace Params

variable {α : Type} [Scalar α]

structure InBounds (params : Params α) : Prop where
  stepSize : 0 < params.stepSize
  stepDecay : 0 ≤ params.stepDecay
  threshold : 0 ≤ params.threshold
  maxStepSize : 0 < params.maxStepSize
  eta : 1 < params.eta
  warmupPath : ∀ path ∈ params.warmupPath, Path.Proper path.strengths
  warmupCount : 0 < params.warmupCount ∧ params.warmupCount < 2 ^ 32
  warmupTolerance : ∀ tolerance ∈ params.warmupTolerance, 0 ≤ tolerance

structure Finite (params : Params α) : Prop where
  stepSize : Scalar.isFinite params.stepSize = true
  stepDecay : Scalar.isFinite params.stepDecay = true
  threshold : Scalar.isFinite params.threshold = true
  maxStepSize : Scalar.isFinite params.maxStepSize = true
  eta : Scalar.isFinite params.eta = true
  warmupTolerance : ∀ tolerance ∈ params.warmupTolerance, Scalar.isFinite tolerance = true

structure Accepted (params : Params α) : Prop where
  bounds : params.InBounds
  finite : params.Finite

def Field.Within : (field : Field) → field.Value α → Prop
  | stepSize | maxStepSize => fun x : α => Scalar.isFinite x = true ∧ 0 < x
  | stepDecay | threshold | warmupTolerance => fun x : α => Scalar.isFinite x = true ∧ 0 ≤ x
  | eta => fun x : α => Scalar.isFinite x = true ∧ 1 < x
  | parallel | warmup => fun _ => True
  | warmupPath => fun path : Path α => Path.Proper path.strengths
  | warmupCount => fun count : Nat => 0 < count ∧ count < 2 ^ 32

theorem readNumber_yields (key value : String) :
    Yields (fun number : α => Scalar.isFinite number = true) (readNumber key value) := by
  unfold readNumber
  split
  · exact .error _
  · split
    · next finite => exact .ok finite
    · exact .error _

theorem readBounded_yields (key value bounds : String) (meets : α → Prop)
    [DecidablePred meets] :
    Yields (fun number => Scalar.isFinite number = true ∧ meets number)
      (readBounded key value bounds fun number => meets number) := by
  refine (readNumber_yields key value).bind fun number finite => ?_
  split
  · next met => exact .ok ⟨finite, of_decide_eq_true met⟩
  · exact .error _

theorem readCount_yields (key value : String) :
    Yields (fun count => 0 < count ∧ count < 2 ^ 32) (readCount key value) := by
  unfold readCount
  split
  · exact .error _
  · split
    · exact .error _
    · split
      · exact .error _
      · next within =>
        refine .ok ?_
        simp only [not_or, not_le] at within
        have bound : ((Nat.pow 2 32 : ℕ) : ℤ) = 2 ^ 32 := by norm_num
        omega

theorem parse_yields_proper (text : String) :
    Yields (fun path : Path α => Path.Proper path.strengths) (Path.parse text) := by
  unfold Path.parse
  split
  · exact .error _
  · refine .bind_of_all fun strengths => ?_
    intro path made
    obtain ⟨kept, proper⟩ := Path.ofShown_eq_ok_iff.mp made
    rwa [kept]

theorem Field.read_yields (field : Field) (value : String) :
    Yields field.Within (field.read value : Except Error (field.Value α)) := by
  cases field with
  | stepSize => exact readBounded_yields _ value _ fun x : α => 0 < x
  | maxStepSize => exact readBounded_yields _ value _ fun x : α => 0 < x
  | stepDecay => exact readBounded_yields _ value _ fun x : α => 0 ≤ x
  | threshold => exact readBounded_yields _ value _ fun x : α => 0 ≤ x
  | warmupTolerance => exact readBounded_yields _ value _ fun x : α => 0 ≤ x
  | eta => exact readBounded_yields _ value _ fun x : α => 1 < x
  | parallel | warmup => exact fun _ _ => trivial
  | warmupPath => exact parse_yields_proper value
  | warmupCount => exact readCount_yields _ value

theorem Accepted.put {params : Params α} (accepted : params.Accepted) {field : Field}
    {x : field.Value α} (within : field.Within x) : (field.put params x).Accepted := by
  obtain ⟨bounds, finite⟩ := accepted
  cases field with
  | stepSize => exact ⟨{ bounds with stepSize := within.2 }, { finite with stepSize := within.1 }⟩
  | stepDecay =>
    exact ⟨{ bounds with stepDecay := within.2 }, { finite with stepDecay := within.1 }⟩
  | threshold =>
    exact ⟨{ bounds with threshold := within.2 }, { finite with threshold := within.1 }⟩
  | maxStepSize =>
    exact ⟨{ bounds with maxStepSize := within.2 }, { finite with maxStepSize := within.1 }⟩
  | eta => exact ⟨{ bounds with eta := within.2 }, { finite with eta := within.1 }⟩
  | parallel | warmup => exact ⟨{ bounds with }, { finite with }⟩
  | warmupPath =>
    refine ⟨{ bounds with warmupPath := ?_ }, { finite with }⟩
    rintro _ ⟨⟩
    exact within
  | warmupCount => exact ⟨{ bounds with warmupCount := within }, { finite with }⟩
  | warmupTolerance =>
    refine ⟨{ bounds with warmupTolerance := ?_ }, { finite with warmupTolerance := ?_ }⟩
    · rintro _ ⟨⟩
      exact within.2
    · rintro _ ⟨⟩
      exact within.1

theorem Accepted.foldl_apply {method : Method} {entries : List String}
    {assignments : List (Assignment α)}
    (assigns : List.Forall₂ (Assigns method) entries assignments) {params : Params α}
    (accepted : params.Accepted) : (assignments.foldl Assignment.apply params).Accepted := by
  induction assigns generalizing params with
  | nil => exact accepted
  | @cons _ first _ _ reads _ ih =>
    obtain ⟨value, _, _, given⟩ := reads
    exact ih (accepted.put (first.field.read_yields value first.value given))

theorem accepted_of_parse {text method : String} {params : Params α}
    (defaults : (default : Params α).Accepted) (read : parse text method = .ok params) :
    params.Accepted := by
  obtain ⟨_, _, _, _, _, assigns, _, rfl⟩ := parse_eq_ok_iff.mp read
  exact defaults.foldl_apply assigns

theorem accepted_default_float : (default : Params Float).Accepted where
  bounds :=
    { stepSize := by decide
      stepDecay := by decide
      threshold := by decide
      maxStepSize := by decide
      eta := by decide
      warmupPath := nofun
      warmupCount := by decide
      warmupTolerance := nofun }
  finite :=
    { stepSize := by decide
      stepDecay := by decide
      threshold := by decide
      maxStepSize := by decide
      eta := by decide
      warmupTolerance := nofun }

theorem accepted_default_exact : (default : Params Exact).Accepted where
  bounds :=
    { stepSize := by
        change (0 : ℝ) < 0.01
        norm_num
      stepDecay := le_refl (0 : ℝ)
      threshold := by
        change (0 : ℝ) ≤ 1e-10
        norm_num
      maxStepSize := by
        change (0 : ℝ) < 4.0
        norm_num
      eta := by
        change (1 : ℝ) < 2.0
        norm_num
      warmupPath := nofun
      warmupCount := by decide
      warmupTolerance := nofun }
  finite :=
    { stepSize := rfl
      stepDecay := rfl
      threshold := rfl
      maxStepSize := rfl
      eta := rfl
      warmupTolerance := nofun }

end Params

end ElasticNet
