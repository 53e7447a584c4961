import ElasticNet.Optimizer

namespace ElasticNet

variable {α β σ : Type}

namespace SlotReader

theorem one_bind (slot : α) (rest : List α) (next : α → SlotReader α β) :
    (one >>= next) (slot :: rest) = next slot rest := rfl

theorem block_bind {count : Nat} {slots : List α} (sized : slots.length = count) (rest : List α)
    (next : List α → SlotReader α β) :
    (block count >>= next) (slots ++ rest) = next slots rest := by
  subst count
  change (block slots.length (slots ++ rest)).bind (fun read => next read.1 read.2) = _
  unfold block
  rw [if_pos (by simp), List.take_left, List.drop_left]
  rfl

end SlotReader

namespace Layout

/-- A state that is read from the front of slots that begin with its own. -/
def ReadsBack (layout : Layout α σ) (state : σ) : Prop :=
  ∀ rest, layout.read (layout.write state ++ rest) = some (state, rest)

namespace ReadsBack

variable {layout : Layout α σ} {state : σ} (back : layout.ReadsBack state)
include back

theorem read : layout.read (layout.write state) = some (state, []) := by
  have whole := back []
  rwa [List.append_nil] at whole

theorem eq_of_write {other : σ} (otherBack : layout.ReadsBack other)
    (same : layout.write state = layout.write other) : state = other := by
  have read := back.read
  rw [same, otherBack.read] at read
  cases read
  rfl

theorem view : layout.view (layout.write state) = .ok state := by
  unfold Layout.view
  rw [back.read]

theorem view? : layout.view? (layout.write state) = some state := by
  unfold Layout.view?
  rw [back.read]
  rfl

theorem edit {changed : σ} {change : σ → Option σ} (changes : change state = some changed)
    (otherwise : Editing α Unit) :
    layout.edit change otherwise (layout.write state) = .ok () (layout.write changed) := by
  unfold Layout.edit
  rw [back.read]
  simp only [changes, List.append_nil]

end ReadsBack

structure StatusLast (layout : Layout α σ) (status : σ → α) (flag : σ → α → σ) : Prop where
  own : ∀ state, flag state (status state) = state
  write : ∀ state number,
    layout.write (flag state number) = (layout.write state).dropLast ++ [number]

namespace StatusLast

variable {layout : Layout α σ} {status : σ → α} {flag : σ → α → σ}

theorem of_append {front last : σ → List α}
    (writes : ∀ state, layout.write state = front state ++ last state)
    (some : ∀ state, last state ≠ []) (own : ∀ state, flag state (status state) = state)
    (same : ∀ state number, front (flag state number) = front state)
    (flags : ∀ state number, last (flag state number) = (last state).dropLast ++ [number]) :
    layout.StatusLast status flag where
  own := own
  write state number := by
    rw [writes, writes, same, flags, List.dropLast_append_of_ne_nil (some state), List.append_assoc]

theorem read_status [Scalar α] (kept : layout.StatusLast status flag) (state : σ) :
    Slots.status (layout.write state) = .ok (.ofSlot (status state)) := by
  have written := kept.write state (status state)
  rw [kept.own] at written
  unfold Slots.status
  rw [written, List.getLast?_concat]

end StatusLast

end Layout

end ElasticNet
