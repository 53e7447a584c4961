import ElasticNet.Proofs.Counted
import ElasticNet.Proofs.Data.Complete
import ElasticNet.Proofs.Reliable

namespace ElasticNet

variable {α : Type} [Scalar α]

namespace Kernel

variable {σ : Type} {kernel : Kernel α σ} {fresh : σ}

/-- A state without rows changes no state that it is merged into, and gives way to the states of
    rows that are merged into it. -/
structure Neutral (kernel : Kernel α σ) (fresh : σ) : Prop where
  behind : ∀ left, kernel.merge left fresh = left
  before : ∀ {rows}, rows ≠ [] →
    kernel.merge fresh (kernel.foldRows fresh rows) = kernel.foldRows fresh rows

omit [Scalar α] in
theorem Neutral.foldl_merge (neutral : kernel.Neutral fresh) (lists : List (List (Row α)))
    (left : σ) :
    (lists.map (kernel.foldRows fresh)).foldl kernel.merge left =
      ((withoutEmpty lists).map (kernel.foldRows fresh)).foldl kernel.merge left := by
  induction lists generalizing left with
  | nil => rfl
  | cons rows rest ih =>
    rw [List.map_cons, List.foldl_cons, ih]
    cases rows with
    | nil =>
      have nothing : kernel.merge left (kernel.foldRows fresh []) = left := neutral.behind left
      rw [nothing, withoutEmpty_nil_cons]
    | cons first others => rfl

theorem gather_single (state : σ) (context : StepContext α) (partitions : List (Partition α)) :
    kernel.gather .single state context partitions =
      kernel.foldRows (kernel.begin state context)
        (withoutEmpty (partitions.map Partition.complete)).flatten := by
  rw [flatten_withoutEmpty, ← List.flatMap_def]
  rfl

theorem gather_parallel {state : σ} {context : StepContext α}
    (neutral : kernel.Neutral (kernel.begin state context)) (partitions : List (Partition α)) :
    kernel.gather .parallel state context partitions =
      ((withoutEmpty (partitions.map Partition.complete)).map
        (kernel.foldRows (kernel.begin state context))).foldl kernel.merge
          (kernel.begin state context) := by
  rw [← neutral.foldl_merge, List.map_map]
  cases partitions with
  | nil => rfl
  | cons first rest =>
    have taken : kernel.merge (kernel.begin state context)
        (kernel.foldRows (kernel.begin state context) first.complete) =
        kernel.foldRows (kernel.begin state context) first.complete := by
      by_cases none : first.complete = []
      · rw [none]
        exact neutral.behind _
      · exact neutral.before none
    change _ = (rest.map _).foldl _ (kernel.merge _ (kernel.foldRows _ first.complete))
    rw [taken]
    rfl

/-- Where nothing is neutral, what is gathered depends on the shares alone. -/
theorem gather_of_shares {state : σ} {context : StepContext α}
    (neutral : kernel.Neutral (kernel.begin state context)) {partitions other : List (Partition α)}
    (shares : withoutEmpty (other.map Partition.complete) =
      withoutEmpty (partitions.map Partition.complete)) (mode : PassMode) :
    kernel.gather mode state context other = kernel.gather mode state context partitions := by
  cases mode with
  | single => rw [gather_single, gather_single, shares]
  | parallel => rw [gather_parallel neutral, gather_parallel neutral, shares]

theorem gather_of_lone {state : σ} {context : StepContext α}
    (neutral : kernel.Neutral (kernel.begin state context)) {partitions : List (Partition α)}
    (lone : (withoutEmpty (partitions.map Partition.complete)).length ≤ 1) :
    kernel.gather .parallel state context partitions =
      kernel.gather .single state context partitions := by
  rw [gather_parallel neutral, gather_single]
  cases shares : withoutEmpty (partitions.map Partition.complete) with
  | nil => rfl
  | cons rows rest =>
    rw [shares, List.length_cons] at lone
    have alone : rest = [] := List.eq_nil_of_length_eq_zero (by omega)
    have filled : rows ≠ [] := by
      have inside : rows ∈ withoutEmpty (partitions.map Partition.complete) := by
        rw [shares]
        exact List.mem_cons_self
      exact ne_nil_of_mem_withoutEmpty inside
    rw [alone, List.flatten_singleton]
    exact neutral.before filled

theorem read_foldRows (read : σ → α)
    (counts : ∀ state row, read (kernel.transition state row) = read state + 1)
    (state : σ) (rows : List (Row α)) :
    read (kernel.foldRows state rows) = (· + 1)^[rows.length] (read state) := by
  induction rows generalizing state with
  | nil => rfl
  | cons row rest ih =>
    have folded := ih (kernel.transition state row)
    rw [counts] at folded
    exact folded

theorem toUInt64_foldRows [Scalar.CountsUp α] (read : σ → α)
    (counts : ∀ state row, read (kernel.transition state row) = read state + 1)
    (cleared : read fresh = 0) {rows : List (Row α)} (some : rows ≠ []) :
    Scalar.toUInt64 (read (kernel.foldRows fresh rows)) ≠ 0 := by
  obtain ⟨count, length⟩ := Nat.exists_eq_succ_of_ne_zero (mt List.eq_nil_of_length_eq_zero some)
  rw [read_foldRows read counts, cleared, length]
  exact Scalar.CountsUp.toUInt64_iterate count

/-- What counts its rows anew in every pass, and leaves a state without any aside, is neutral when a
    pass begins. -/
theorem Counts.neutral [Scalar.KeepsCounts α] [Scalar.CountsUp α] {total rows : σ → α}
    (counts : kernel.Counts total rows) (state : σ) (context : StepContext α) :
    kernel.Neutral (kernel.begin state context) := by
  have cleared : Scalar.toUInt64 (rows (kernel.begin state context)) = 0 := by
    rw [counts.begin_rows, Scalar.toUInt64_zero]
  refine ⟨fun left => counts.merge_none cleared, fun some => ?_⟩
  have counted :=
    toUInt64_foldRows rows counts.transition_rows (counts.begin_rows state context) some
  exact counts.merge_first counted cleared

end Kernel

def Optimizer.SeesShares (optimizer : Optimizer α) (dimension : Nat) (Sound : Slots α → Prop) :
    Prop :=
  ∀ {slots : Slots α}, Sound slots → ∀ (mode : PassMode) (context : StepContext α)
    {source other : Source α}, source.dimension = dimension → other.dimension = dimension →
    other.shares = source.shares →
    Pass.step ⟨optimizer, mode⟩ (some slots) context other =
      Pass.step ⟨optimizer, mode⟩ (some slots) context source

theorem Kernel.CarriedOut.seesShares {σ : Type} {kernel : Kernel α σ} {optimizer : Optimizer α}
    {write : σ → Slots α} {Sized : σ → Prop} {dimension : Nat}
    (carried : kernel.CarriedOut optimizer write Sized dimension)
    (neutral : ∀ state context, kernel.Neutral (kernel.begin state context)) :
    optimizer.SeesShares dimension fun slots => ∃ state, Sized state ∧ slots = write state := by
  rintro _ ⟨state, sized, rfl⟩ mode context source other fitting otherFitting shares
  rw [(carried.step fitting sized mode context).2, (carried.step otherFitting sized mode context).2,
    Kernel.pass, gather_of_shares (neutral state context) shares]
  rfl

variable [Scalar.KeepsCounts α] [Scalar.CountsUp α]

/-- Both methods are reliable, and see nothing of a source but its shares. -/
theorem Optimizer.exists_seeing (family : Family) (method : Method) {dimension : Nat}
    (positive : 0 < dimension) (fits : Fista.slotCount dimension < UInt32.size) :
    ∃ Sound, (Optimizer.ofMethod family method : Optimizer α).Reliable dimension Sound ∧
      (Optimizer.ofMethod family method : Optimizer α).SeesShares dimension Sound := by
  have small := Fista.lt_of_slotCount_lt fits
  cases method with
  | igd =>
    exact ⟨_, Igd.reliable family positive small,
      (Igd.carriedOut family dimension).seesShares (Igd.counts family).neutral⟩
  | fista =>
    exact ⟨_, Fista.reliable family positive fits,
      (Fista.carriedOut family dimension).seesShares (Fista.counts family).neutral⟩

end ElasticNet
