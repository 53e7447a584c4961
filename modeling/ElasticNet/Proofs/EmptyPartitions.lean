import ElasticNet.Proofs.Shares

namespace ElasticNet

open Command

variable {α : Type} [Scalar α]

def Slots.flagged (slots : Slots α) (status : Status) : Slots α :=
  slots.dropLast ++ [status.slot]

def Method.Holds (dimension : Nat) (slots : Slots α) : Method → Prop
  | .igd => ∃ state : Igd.State α, state.Sized dimension ∧ slots = Igd.layout.write state
  | .fista => ∃ state : Fista.State α, state.Sized dimension ∧ slots = Fista.layout.write state

/-- An optimizer that steps from some slots as if partitions without complete rows were not
    there. -/
structure Optimizer.SkipsEmpty (optimizer : Optimizer α) (dimension : Nat) (slots : Slots α)
    (context : StepContext α) : Prop where
  answers : ∀ mode {source : Source α}, source.dimension = dimension →
    ∃ after, Pass.step ⟨optimizer, mode⟩ (some slots) context source = .ok after
  skips : ∀ mode {source other : Source α}, source.dimension = dimension →
    other.dimension = dimension → other.occupied = source.occupied →
    Pass.step ⟨optimizer, mode⟩ (some slots) context other =
      Pass.step ⟨optimizer, mode⟩ (some slots) context source
  agrees : ∀ {source : Source α}, source.dimension = dimension → source.occupied.length ≤ 1 →
    Pass.step ⟨optimizer, .parallel⟩ (some slots) context source =
      Pass.step ⟨optimizer, .single⟩ (some slots) context source
  rests : ∀ {source : Source α}, source.dimension = dimension → source.occupied = [] →
    ∃ begun, optimizer.begin (some slots) context = .ok begun ∧
      ∀ mode, Pass.step ⟨optimizer, mode⟩ (some slots) context source =
        .ok (begun.flagged .empty)

theorem Source.occupied_of_inserted {source other : Source α} {front empties back}
    (without : source.partitions = front ++ back)
    (inserted : other.partitions = front ++ empties ++ back)
    (none : ∀ part ∈ empties, part.complete = []) : other.occupied = source.occupied := by
  have nothing : empties.filter (fun part => !part.complete.isEmpty) = [] := by
    simpa using none
  rw [occupied, occupied, inserted, without, List.filter_append, List.filter_append, nothing,
    List.append_nil, List.filter_append]

theorem Kernel.CarriedOut.skipsEmpty {σ : Type} {kernel : Kernel α σ} {optimizer : Optimizer α}
    {write : σ → Slots α} {Sized : σ → Prop} {dimension : Nat}
    (carried : kernel.CarriedOut optimizer write Sized dimension) {state : σ} (sized : Sized state)
    {context : StepContext α} (neutral : kernel.Neutral (kernel.begin state context))
    (flags : write (kernel.finalize (kernel.begin state context)) =
      Slots.flagged (write (kernel.begin state context)) .empty) :
    optimizer.SkipsEmpty dimension (write state) context where
  answers mode _ fitting := ⟨_, (carried.step fitting sized mode context).2⟩
  skips := by
    intro mode source other fitting otherFitting same
    have shares : other.shares = source.shares := by
      rw [Source.shares_eq_map_occupied, Source.shares_eq_map_occupied, same]
    rw [(carried.step fitting sized mode context).2,
      (carried.step otherFitting sized mode context).2, Kernel.pass,
      gather_of_shares neutral shares]
    rfl
  agrees := by
    intro source fitting few
    have lone : source.shares.length ≤ 1 := by
      rwa [Source.shares_eq_map_occupied, List.length_map]
    rw [(carried.step fitting sized _ context).2, (carried.step fitting sized _ context).2,
      Kernel.pass, gather_of_lone neutral lone]
    rfl
  rests := by
    intro source fitting none
    obtain ⟨_, begun⟩ := carried.begin sized context
    refine ⟨_, begun, fun mode => ?_⟩
    have gathered := kernel.gather_of_none mode state context
      ((source.occupied_eq_nil_iff).mp none) (neutral.behind _)
    rw [(carried.step fitting sized mode context).2, Kernel.pass, gathered, flags]

variable [Scalar.KeepsCounts α] [Scalar.CountsUp α]

/-- Neither method sees partitions without complete rows, in whatever order they stand, and with one
    partition that has some there is nothing to merge. Counting rows may lose some, if it never
    comes back to none. -/
theorem Optimizer.empty_partitions_skipped (family : Family) (method : Method) {dimension : Nat}
    {slots : Slots α} (held : method.Holds dimension slots) (context : StepContext α) :
    (ofMethod family method).SkipsEmpty dimension slots context := by
  cases method with
  | igd =>
    obtain ⟨state, sized, rfl⟩ := held
    have rests : (state.begin context).finalize family =
        { state.begin context with status := Status.empty.slot } := if_pos Scalar.toUInt64_zero
    exact (Igd.carriedOut family dimension).skipsEmpty sized
      ((Igd.counts family).neutral state context)
      ((congrArg Igd.layout.write rests).trans (Igd.statusLast.write _ _))
  | fista =>
    obtain ⟨state, sized, rfl⟩ := held
    have rests : (state.begin context).finalize =
        { state.begin context with status := Status.empty.slot } := if_pos Scalar.toUInt64_zero
    exact (Fista.carriedOut family dimension).skipsEmpty sized
      ((Fista.counts family).neutral state context)
      ((congrArg Fista.layout.write rests).trans (Fista.statusLast.write _ _))

def lateRow : Source Float where
  dimension := 1
  partitions := [.empty 1, ⟨1, [⟨[0 / 0], 3, "a"⟩], by decide⟩, ⟨1, [⟨[1], 2, "a"⟩], by decide⟩]
  uniform := by simp [Partition.empty]

def lateRowAlone : Source Float where
  dimension := 1
  partitions := [⟨1, [⟨[1], 2, "a"⟩], by decide⟩]
  uniform := by simp

theorem Optimizer.empty_partitions_skipped_lateRow :
    let context : StepContext Float := { StepContext.default with dimension := 1, totalRows := 1 }
    let start := Fista.layout.write (Fista.initialState context)
    let step mode := Pass.step ⟨ofMethod .gaussian .fista, mode⟩ (some start) context
    Method.fista.Holds 1 start ∧ lateRow.occupied = lateRowAlone.occupied ∧
      step .parallel lateRow = step .parallel lateRowAlone ∧
      step .parallel lateRow = step .single lateRow := by
  intro context start step
  have small : context.dimension < UInt32.size := by decide
  have held : Method.fista.Holds 1 start := ⟨_, Fista.sized_initialState small, rfl⟩
  have none : ∀ part ∈ [.empty 1, ⟨1, [⟨[0 / 0], 3, "a"⟩], by decide⟩],
      (part : Partition Float).complete.isEmpty = true := by decide +kernel
  have without : lateRowAlone.partitions = [] ++ lateRowAlone.partitions := rfl
  have same : lateRow.occupied = lateRowAlone.occupied :=
    Source.occupied_of_inserted without rfl fun part inside =>
      List.isEmpty_iff.mp (none part inside)
  have alone : lateRow.occupied.length ≤ 1 := by
    rw [same]
    exact List.length_filter_le _ _
  have skips := empty_partitions_skipped .gaussian .fista held context
  exact ⟨held, same, skips.skips .parallel rfl rfl same, skips.agrees rfl alone⟩

end ElasticNet
