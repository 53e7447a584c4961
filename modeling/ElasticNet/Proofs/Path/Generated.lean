import ElasticNet.Proofs.Path.Checked

namespace ElasticNet.Path

variable {α : Type} [Scalar α]

theorem head?_geometric (first last : α) (count : Nat) :
    (geometric first last count).head? = some first := by
  unfold geometric
  split
  · rfl
  · rfl

theorem length_geometric (first last : α) {count : Nat} (positive : 1 ≤ count) :
    (geometric first last count).length = count := by
  unfold geometric
  split
  · simp
    omega
  · simp
    omega

theorem getLast?_geometric (first last : α) {count : Nat} (several : 2 ≤ count) :
    (geometric first last count).getLast? = some last := by
  unfold geometric
  rw [if_neg (by omega)]
  dsimp only
  exact List.getLast?_concat ..

theorem geometric_one (first last : α) : geometric first last 1 = [first] := rfl

def Alone (largest target : α) (count : Nat) : Prop :=
  Scalar.isFinite largest = false ∨ largest ≤ target ∨ count = 1

instance (largest target : α) (count : Nat) : Decidable (Alone largest target count) :=
  inferInstanceAs (Decidable (_ ∨ _))

def requested (largest target : α) (count : Nat) : List α :=
  if Alone largest target count then [target]
  else if target < negligible then
    geometric largest (largest * lowestShare) (count - 1) ++ [target]
  else geometric largest target count

theorem map_shown (points : List α) (target : α) :
    (points.map (fun point => (point, Scalar.resultText point)) ++
      [(target, Scalar.text target)]).map Prod.fst = points ++ [target] := by
  rw [List.map_append, List.map_map]
  exact congrArg (· ++ [target]) (List.map_id points)

theorem generate_eq_ok_iff {largest target : α} {count : Nat} {path : Path α} :
    generate largest target count = .ok path ↔
      1 ≤ count ∧ path.strengths = requested largest target count ∧
        Proper (requested largest target count) := by
  unfold generate requested
  by_cases positive : 1 ≤ count
  · rw [if_neg (by omega), and_iff_right positive]
    by_cases finite : Scalar.isFinite largest = true
    · have known : Alone largest target count ↔ largest ≤ target ∨ count = 1 := by
        simp [Alone, finite]
      simp only [finite, Bool.not_true, Bool.false_eq_true, if_false, known]
      by_cases alone : largest ≤ target ∨ count = 1
      · simp only [if_pos alone]
        exact ofList_eq_ok_iff
      · simp only [if_neg alone]
        split
        · rw [ofShown_eq_ok_iff, map_shown]
        · exact ofList_eq_ok_iff
    · have alone : Alone largest target count := .inl (by simpa using finite)
      rw [if_pos alone, if_pos (by simpa using finite)]
      exact ofList_eq_ok_iff
  · rw [if_pos (by omega)]
    constructor
    · intro made
      cases made
    · intro made
      exact absurd made.1 positive

section Spread

variable {largest target : α} {count : Nat} (spread : ¬ Alone largest target count)
  (positive : 1 ≤ count)
include spread positive

theorem two_le_of_spread : 2 ≤ count := by
  have several : count ≠ 1 := fun one => spread (.inr (.inr one))
  omega

theorem length_requested : (requested largest target count).length = count := by
  have several := two_le_of_spread spread positive
  unfold requested
  rw [if_neg spread]
  split
  · rw [List.length_append, length_geometric _ _ (by omega), List.length_singleton]
    omega
  · exact length_geometric _ _ positive

omit positive in
theorem head?_requested : (requested largest target count).head? = some largest := by
  unfold requested
  rw [if_neg spread]
  split
  · rw [List.head?_append, head?_geometric]
    rfl
  · exact head?_geometric _ _ _

omit spread positive in
variable (largest target count) in
theorem requested_ne_nil : requested largest target count ≠ [] := by
  intro empty
  by_cases alone : Alone largest target count
  · rw [requested, if_pos alone] at empty
    cases empty
  · have first := head?_requested alone
    rw [empty] at first
    cases first

theorem getLast?_requested : (requested largest target count).getLast? = some target := by
  have several := two_le_of_spread spread positive
  unfold requested
  rw [if_neg spread]
  split
  · exact List.getLast?_concat ..
  · exact getLast?_geometric _ _ several

end Spread

theorem exists_generate {largest target : α} {count : Nat} (positive : 1 ≤ count)
    (proper : Proper (requested largest target count)) :
    ∃ path, generate largest target count = .ok path :=
  ⟨⟨_, requested_ne_nil _ _ _⟩, generate_eq_ok_iff.mpr ⟨positive, rfl, proper⟩⟩

structure Shaped (largest target : α) (count : Nat) (path : Path α) : Prop where
  valid : ∀ strength ∈ path.strengths, Scalar.isFinite strength = true ∧ 0 ≤ strength
  falling : path.strengths.Pairwise fun before after => after ≤ before
  alone : Alone largest target count → path.size = 1
  spread : ¬ Alone largest target count →
    path.size = count ∧ path.strengths.head? = some largest
  target : path.target = target

omit [Scalar α] in
theorem target_of_getLast? {path : Path α} {target : α}
    (last : path.strengths.getLast? = some target) : path.target = target := by
  have given := List.getLast?_eq_some_getLast path.nonempty
  rw [last] at given
  exact (Option.some.inj given).symm

theorem shaped_of_generate [Scalar.OrdersFinite α] {largest target : α} {count : Nat}
    {path : Path α} (made : generate largest target count = .ok path) :
    Shaped largest target count path := by
  obtain ⟨positive, kept, proper⟩ := generate_eq_ok_iff.mp made
  rw [← kept] at proper
  by_cases alone : Alone largest target count
  · have single : path.strengths = [target] := kept.trans (if_pos alone)
    refine ⟨proper.nonneg, proper.pairwise, fun _ => ?_, fun spread => absurd alone spread, ?_⟩
    · unfold size
      rw [single]
      rfl
    · apply target_of_getLast?
      rw [single]
      rfl
  · refine ⟨proper.nonneg, proper.pairwise, fun given => absurd given alone, fun _ => ?_, ?_⟩
    · unfold size
      rw [kept]
      exact ⟨length_requested alone positive, head?_requested alone⟩
    · apply target_of_getLast?
      rw [kept]
      exact getLast?_requested alone positive

end ElasticNet.Path
