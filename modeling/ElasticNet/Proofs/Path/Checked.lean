import ElasticNet.Path
import ElasticNet.Proofs.Ordered
import Mathlib.Data.List.Chain

namespace ElasticNet.Path

variable {α : Type} [Scalar α]

structure Proper (strengths : List α) : Prop where
  valid : ∀ strength ∈ strengths, Scalar.isFinite strength = true ∧ ¬ strength < 0
  falling : strengths.IsChain fun before after => ¬ before < after

structure Falling (strengths : List α) : Prop where
  nonempty : strengths ≠ []
  valid : ∀ strength ∈ strengths, Scalar.isFinite strength = true ∧ 0 ≤ strength
  falling : strengths.Pairwise fun before after => after ≤ before

theorem not_rejected_iff (strength : α) :
    (!Scalar.isFinite strength || strength < 0) = false ↔
      Scalar.isFinite strength = true ∧ ¬ strength < 0 := by
  simp

theorem proper_cons_iff (first : α) (rest : List α) :
    Proper (first :: rest) ↔ (Scalar.isFinite first = true ∧ ¬ first < 0) ∧
      (∀ second ∈ rest.head?, ¬ first < second) ∧ Proper rest := by
  constructor
  · intro proper
    have valid := List.forall_mem_cons.mp proper.valid
    have chain := List.isChain_cons.mp proper.falling
    exact ⟨valid.1, chain.1, valid.2, chain.2⟩
  · intro parts
    exact ⟨List.forall_mem_cons.mpr ⟨parts.1, parts.2.2.valid⟩,
      List.isChain_cons.mpr ⟨parts.2.1, parts.2.2.falling⟩⟩

theorem proper_concat_iff (points : List α) (last : α) :
    Proper (points ++ [last]) ↔ Proper points ∧
      (Scalar.isFinite last = true ∧ ¬ last < 0) ∧
        ∀ before ∈ points.getLast?, ¬ before < last := by
  constructor
  · intro proper
    have chain := List.isChain_append.mp proper.falling
    refine ⟨⟨fun strength inside => ?_, chain.1⟩, ?_, fun before ends => ?_⟩
    · exact proper.valid strength (List.mem_append_left _ inside)
    · exact proper.valid last (List.mem_append_right _ (List.mem_singleton_self last))
    · exact chain.2.2 before ends last rfl
  · intro parts
    refine ⟨fun strength inside => ?_, List.isChain_append.mpr ⟨parts.1.falling, .singleton _, ?_⟩⟩
    · rcases List.mem_append.mp inside with among | equal
      · exact parts.1.valid strength among
      · obtain rfl := List.mem_singleton.mp equal
        exact parts.2.1
    · rintro before ends _ ⟨⟩
      exact parts.2.2 before ends

theorem proper_singleton_iff (strength : α) :
    Proper [strength] ↔ Scalar.isFinite strength = true ∧ ¬ strength < 0 := by
  have none : Proper ([] : List α) := ⟨nofun, .nil⟩
  simp [proper_cons_iff, none]

theorem checkFrom_eq_ok_iff (position : Nat) (previous? : Option (Shown α))
    (strengths : List (Shown α)) :
    checkFrom position previous? strengths = .ok () ↔
      (∀ previous ∈ previous?, ∀ first ∈ strengths.head?, ¬ previous.1 < first.1) ∧
        Proper (strengths.map Prod.fst) := by
  induction strengths generalizing position previous? with
  | nil =>
    have none : Proper ([] : List α) := ⟨nofun, .nil⟩
    simp [checkFrom, none]
  | cons first rest ih =>
    have heads : (∀ second ∈ (rest.map Prod.fst).head?, ¬ first.1 < second) ↔
        ∀ second ∈ rest.head?, ¬ first.1 < second.1 := by
      rw [List.head?_map]
      simp
    rw [List.map_cons, proper_cons_iff, heads]
    unfold checkFrom
    split
    · next rejected =>
      have bad : ¬ (Scalar.isFinite first.1 = true ∧ ¬ first.1 < 0) := by
        rw [← not_rejected_iff, rejected]
        decide
      simp [bad]
    · next accepted =>
      have good := (not_rejected_iff first.1).mp (by simpa using accepted)
      cases previous? with
      | none => simp [ih, good]
      | some previous =>
        by_cases rising : previous.1 < first.1
        · simp [rising]
        · simp [rising, ih, good]

/-- A path is made of shown strengths if and only if they are proper, and it keeps them. -/
theorem ofShown_eq_ok_iff {strengths : List (Shown α)} {path : Path α} :
    ofShown strengths = .ok path ↔
      path.strengths = strengths.map Prod.fst ∧ Proper (strengths.map Prod.fst) := by
  cases strengths with
  | nil =>
    constructor
    · intro made
      cases made
    · intro kept
      exact absurd kept.1 path.nonempty
  | cons first rest =>
    have checked := checkFrom_eq_ok_iff 1 none (first :: rest)
    unfold ofShown
    dsimp only
    cases ended : checkFrom 1 none (first :: rest) with
    | ok answer =>
      constructor
      · intro made
        cases made
        exact ⟨rfl, (checked.mp ended).2⟩
      · intro kept
        obtain ⟨strengths, nonempty⟩ := path
        cases kept.1
        rfl
    | error error =>
      constructor
      · intro made
        cases made
      · intro kept
        have passed := checked.mpr ⟨nofun, kept.2⟩
        rw [ended] at passed
        cases passed

theorem ofList_eq_ok_iff {strengths : List α} {path : Path α} :
    ofList strengths = .ok path ↔ path.strengths = strengths ∧ Proper strengths := by
  have kept : (strengths.map fun strength => (strength, Scalar.text strength)).map Prod.fst =
      strengths := by
    rw [List.map_map]
    exact List.map_id strengths
  unfold ofList
  rw [ofShown_eq_ok_iff, kept]

variable [Scalar.OrdersFinite α]

theorem Proper.nonneg {strengths : List α} (proper : Proper strengths) :
    ∀ strength ∈ strengths, Scalar.isFinite strength = true ∧ 0 ≤ strength := by
  intro strength inside
  obtain ⟨finite, above⟩ := proper.valid strength inside
  exact ⟨finite, Scalar.OrdersFinite.le_of_not_lt finite Scalar.OrdersFinite.isFinite_zero above⟩

theorem Proper.pairwise {strengths : List α} (proper : Proper strengths) :
    strengths.Pairwise fun before after => after ≤ before := by
  induction strengths with
  | nil => exact .nil
  | cons first rest ih =>
    obtain ⟨⟨finite, _⟩, step, proper⟩ := (proper_cons_iff first rest).mp proper
    have falling := ih proper
    refine List.pairwise_cons.mpr ⟨?_, falling⟩
    intro later inside
    cases rest with
    | nil => cases inside
    | cons second others =>
      have finiteSecond := (proper.valid second List.mem_cons_self).1
      have finiteLater := (proper.valid later inside).1
      have below := Scalar.OrdersFinite.le_of_not_lt finite finiteSecond (step second rfl)
      rcases List.mem_cons.mp inside with rfl | further
      · exact below
      · have lower := (List.pairwise_cons.mp falling).1 later further
        exact Scalar.OrdersFinite.le_trans finiteLater finiteSecond finite lower below

end ElasticNet.Path
