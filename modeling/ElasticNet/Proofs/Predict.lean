import ElasticNet.Proofs.Scales.Restore
import Mathlib.Analysis.SpecialFunctions.Sigmoid

namespace ElasticNet.Predict

open Exact Matrix

structure Answers (α : Type) where
  response : Except Error (Option α)
  decision : Except Error (Option Bool)
  chance : Except Error (Option α)
  loss : Bool → Except Error (Option α)

section Answers

variable {α : Type} [Scalar α]

def answers (coefficients : List α) (intercept : α) (features : List α) : Answers α where
  response := gaussian coefficients intercept features
  decision := binomial coefficients intercept features
  chance := probability coefficients intercept features
  loss observed := classLoss coefficients intercept observed features

def answersBy (predictor : Except Error (Option α)) : Answers α where
  response := predictor
  decision := predictor.map (Option.map fun r => decide (0 < r))
  chance := predictor.map (Option.map fun r => 1 / (1 + Scalar.exp (-r)))
  loss observed := predictor.map (Option.map fun r => logisticLoss r (if observed then 1 else -1))

theorem answers_eq_answersBy (coefficients : List α) (intercept : α) (features : List α) :
    answers coefficients intercept features =
      answersBy (linear coefficients intercept features) := rfl

end Answers

namespace Answers

variable {α : Type}

structure Refuse (given : Answers α) (error : Error) : Prop where
  response : given.response = .error error
  decision : given.decision = .error error
  chance : given.chance = .error error
  loss : ∀ observed, given.loss observed = .error error

structure Missing (given : Answers α) : Prop where
  response : given.response = .ok none
  decision : given.decision = .ok none
  chance : given.chance = .ok none
  loss : ∀ observed, given.loss observed = .ok none

/-- Answers that say the same of a linear predictor and a probability of the first class. -/
structure Agree (given : Answers Exact) (r p : ℝ) : Prop where
  response : given.response = .ok (some (number r))
  decision : given.decision = .ok (some (decide (0 < r)))
  chance : given.chance = .ok (some (number p))
  decides : 0 < r ↔ 1 / 2 < p
  inside : 0 < p ∧ p < 1
  firstLoss : given.loss true = .ok (some (number (-Real.log p)))
  secondLoss : given.loss false = .ok (some (number (-Real.log (1 - p))))

theorem refuse_answersBy [Scalar α] (error : Error) :
    (answersBy (.error error : Except Error (Option α))).Refuse error :=
  ⟨rfl, rfl, rfl, fun _ => rfl⟩

theorem missing_answersBy [Scalar α] : (answersBy (.ok none : Except Error (Option α))).Missing :=
  ⟨rfl, rfl, rfl, fun _ => rfl⟩

end Answers

theorem half_lt_sigmoid_iff (r : ℝ) : 1 / 2 < Real.sigmoid r ↔ 0 < r := by
  rw [one_div, ← Real.sigmoid_zero]
  exact Real.sigmoid_lt_iff

theorem log_one_add_exp (r : ℝ) : Real.log (1 + Real.exp (-r)) = -Real.log (Real.sigmoid r) := by
  rw [Real.sigmoid_def, Real.log_inv, neg_neg]

theorem chance_number (r : ℝ) : 1 / (1 + Scalar.exp (-number r)) = number (Real.sigmoid r) := by
  have nonzero : 1 + Real.exp (-r) ≠ 0 := by positivity
  rw [number_neg, exp_number, one_eq, number_add, number_div 1 nonzero, Real.sigmoid_def, one_div]

theorem logisticLoss_number (r : ℝ) (observed : Bool) :
    logisticLoss (number r) (if observed then 1 else -1) =
      number (-Real.log (Real.sigmoid (if observed then r else -r))) := by
  have positive (s : ℝ) : 0 < 1 + Real.exp s := by positivity
  unfold logisticLoss
  cases observed with
  | true =>
    have first : (0 : Exact) < (if true then 1 else -1) := zero_lt_one' ℝ
    rw [if_pos first, number_neg, exp_number, one_eq, number_add, log_number (positive _),
      log_one_add_exp]
    rfl
  | false =>
    have second : ¬(0 : Exact) < (if false then 1 else -1) := by
      intro above
      exact absurd (show (0 : ℝ) < -1 from above) (by norm_num)
    have mirrored := log_one_add_exp (-r)
    rw [neg_neg] at mirrored
    rw [if_neg second, exp_number, one_eq, number_add, log_number (positive _), mirrored]
    rfl

theorem agree_answersBy (r : ℝ) : (answersBy (.ok (some (number r)))).Agree r (Real.sigmoid r) := by
  refine ⟨rfl, rfl, ?_, (half_lt_sigmoid_iff r).symm, ⟨Real.sigmoid_pos r, Real.sigmoid_lt_one r⟩,
    ?_, ?_⟩
  · exact congrArg (fun p => Except.ok (some p)) (chance_number r)
  · exact congrArg (fun loss => Except.ok (some loss)) (logisticLoss_number r true)
  · rw [← Real.sigmoid_neg]
    exact congrArg (fun loss => Except.ok (some loss)) (logisticLoss_number r false)

theorem loss_answersBy_neg (r : ℝ) (observed : Bool) :
    (answersBy (.ok (some (number (-r))))).loss (!observed) =
      (answersBy (.ok (some (number r)))).loss observed := by
  change Except.ok (some (logisticLoss _ _)) = Except.ok (some (logisticLoss _ _))
  rw [logisticLoss_number, logisticLoss_number]
  cases observed with
  | true => rw [Bool.not_true, if_neg Bool.false_ne_true, neg_neg, if_pos rfl]
  | false => rw [Bool.not_false, if_pos rfl, if_neg Bool.false_ne_true]

theorem answers_ofVector {n : ℕ} (w x : Fin n → ℝ) (b : ℝ) :
    answers (ofVector w) (number b) (ofVector x) =
      answersBy (.ok (some (number (b + w ⬝ᵥ x)))) := by
  rw [answers_eq_answersBy, linear_ofVector]

theorem answers_opposite {n : ℕ} (w x : Fin n → ℝ) (b : ℝ) :
    answers ((ofVector w).map (- ·)) (-number b) (ofVector x) =
      answersBy (.ok (some (number (-(b + w ⬝ᵥ x))))) := by
  have turned : (ofVector w).map (- ·) = ofVector (-w) := map_ofVector _ (- ·) number_neg w
  rw [turned, number_neg, answers_ofVector, neg_dotProduct, neg_add]

theorem exists_agree {coefficients features : List Exact} {intercept : Exact}
    (finite : (Scalar.allFinite coefficients && Scalar.isFinite intercept) = true)
    (fitting : coefficients.length = features.length)
    (known : Scalar.allFinite features = true) :
    ∃ (n : ℕ) (w x : Fin n → ℝ) (b p : ℝ),
      coefficients = ofVector w ∧ features = ofVector x ∧ intercept = number b ∧
      (answers coefficients intercept features).Agree (b + w ⬝ᵥ x) p ∧
      (answers (coefficients.map (- ·)) (-intercept) features).Agree (-(b + w ⬝ᵥ x)) (1 - p) ∧
      ∀ observed, (answers (coefficients.map (- ·)) (-intercept) features).loss (!observed) =
        (answers coefficients intercept features).loss observed := by
  obtain ⟨entries, constant⟩ := (Bool.and_eq_true _ _).mp finite
  obtain ⟨b, rfl⟩ := exists_number constant
  obtain ⟨n, sized⟩ : ∃ n, features.length = n := ⟨_, rfl⟩
  obtain ⟨w, rfl⟩ := exists_ofVector entries (fitting.trans sized)
  obtain ⟨x, rfl⟩ := exists_ofVector known sized
  refine ⟨n, w, x, b, Real.sigmoid (b + w ⬝ᵥ x), rfl, rfl, rfl, ?_, ?_, ?_⟩
  · rw [answers_ofVector]
    exact agree_answersBy _
  · rw [answers_opposite, ← Real.sigmoid_neg]
    exact agree_answersBy _
  · rw [answers_ofVector, answers_opposite]
    exact loss_answersBy_neg _

/-- The predictions of one model agree, whatever model and features they are given. They refuse a
    model that is not finite, and after that features of another number, with one error; they answer
    nothing just if a feature is missing; and otherwise a response is positive just as the first
    class is decided for and just as it is the likelier one, the losses are those of the two
    probabilities, and the model of the opposite sign takes each class for the other. -/
theorem predictions_agree (coefficients : List Exact) (intercept : Exact)
    (features : List Exact) :
    let given := answers coefficients intercept features
    let opposite := answers (coefficients.map (- ·)) (-intercept) features
    let finite := Scalar.allFinite coefficients && Scalar.isFinite intercept
    let missing := features.any Scalar.isNaN
    finite = false ∧ given.Refuse .nonFiniteModel ∨
    finite = true ∧ coefficients.length ≠ features.length ∧
      given.Refuse (.featureCount coefficients.length features.length) ∨
    finite = true ∧ coefficients.length = features.length ∧ missing = true ∧ given.Missing ∨
    finite = true ∧ coefficients.length = features.length ∧ missing = false ∧
      ∃ (n : ℕ) (w x : Fin n → ℝ) (b p : ℝ),
        coefficients = ofVector w ∧ features = ofVector x ∧ intercept = number b ∧
        given.Agree (b + w ⬝ᵥ x) p ∧ opposite.Agree (-(b + w ⬝ᵥ x)) (1 - p) ∧
        ∀ observed, opposite.loss (!observed) = given.loss observed := by
  intro given opposite finite missing
  have read : missing = !Scalar.allFinite features := List.not_all_eq_any_not.symm
  have own : given = answersBy (linear coefficients intercept features) := rfl
  rw [linear_eq] at own
  by_cases sound : finite = true
  · rw [if_pos sound] at own
    by_cases fitting : coefficients.length = features.length
    · rw [if_pos fitting] at own
      by_cases known : Scalar.allFinite features = true
      · rw [known] at read
        exact .inr (.inr (.inr ⟨sound, fitting, read, exists_agree sound fitting known⟩))
      · rw [if_neg known] at own
        rw [Bool.not_eq_true] at known
        rw [known] at read
        exact .inr (.inr (.inl ⟨sound, fitting, read, own ▸ Answers.missing_answersBy⟩))
    · rw [if_neg fitting] at own
      exact .inr (.inl ⟨sound, fitting, own ▸ Answers.refuse_answersBy _⟩)
  · rw [if_neg sound] at own
    exact .inl ⟨(Bool.not_eq_true _).mp sound, own ▸ Answers.refuse_answersBy _⟩

end ElasticNet.Predict
