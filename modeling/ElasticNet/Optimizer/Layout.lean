import ElasticNet.Command

namespace ElasticNet

abbrev Slots (α : Type) := List α

abbrev Editing (α β : Type) := Command (Slots α) β

abbrev SlotReader (α β : Type) := StateT (List α) Option β

namespace SlotReader

def one {α : Type} : SlotReader α α
  | [] => none
  | slot :: rest => some (slot, rest)

def block {α : Type} (count : Nat) : SlotReader α (List α) := fun slots =>
  if count ≤ slots.length then some (slots.take count, slots.drop count) else none

end SlotReader

/-- A way to keep the states of a type in slots. Slots behind the last field belong to nobody and
    are kept. -/
structure Layout (α σ : Type) where
  read : SlotReader α σ
  write : σ → List α

namespace Layout

variable {α σ : Type}

def view (layout : Layout α σ) (slots : Slots α) : Except Error σ :=
  match layout.read slots with
  | some (state, _) => .ok state
  | none => .error .indexOutOfBounds

def view? (layout : Layout α σ) (slots : Slots α) : Option σ :=
  (layout.read slots).map Prod.fst

/-- Changes the state in some slots. Slots that hold none, or one that cannot be changed so, are
    left to another way to edit. -/
def edit (layout : Layout α σ) (change : σ → Option σ) (otherwise : Editing α Unit) :
    Editing α Unit := fun slots =>
  match layout.read slots with
  | some (state, rest) =>
    match change state with
    | some changed => .ok () (layout.write changed ++ rest)
    | none => otherwise slots
  | none => otherwise slots

end Layout

namespace Editing

variable {α : Type}

/-- Overwrites all slots with those of another state, from the front; a shorter one ends the
    copying with an error. -/
def overwrite (other : Slots α) : Editing α Unit := fun slots =>
  if slots.length ≤ other.length then .ok () (other.take slots.length)
  else .error .indexOutOfBounds (other ++ slots.drop other.length)

end Editing

end ElasticNet
