import ElasticNet.Optimizer.Slot
import ElasticNet.Proofs.Command
import ElasticNet.Proofs.Counts
import ElasticNet.Vector
import Mathlib.Data.List.Forall2
import Mathlib.Data.List.Nodup
import Mathlib.Tactic.Choose

namespace ElasticNet

/-- What the slots of a field are read as: a number, a word, a count of rows, a code, or as many
    numbers as a state has features. -/
inductive FieldType where
  | number
  | word
  | count
  | code
  | vector

namespace FieldType

def width (dimension : ℕ) : FieldType → ℕ
  | vector => dimension
  | _ => 1

def IsInteger : FieldType → Prop
  | word | count | code => True
  | number | vector => False

def span (dimension : ℕ) : List FieldType → ℕ
  | [] => 0
  | type :: types => type.width dimension + span dimension types

theorem span_cons (dimension : ℕ) (type : FieldType) (types : List FieldType) :
    span dimension (type :: types) = type.width dimension + span dimension types := rfl

theorem span_concat (dimension : ℕ) (types : List FieldType) (type : FieldType) :
    span dimension (types ++ [type]) = span dimension types + type.width dimension := by
  induction types with
  | nil => exact Nat.add_comm _ _
  | cons first types ih => rw [List.cons_append, span_cons, span_cons, ih, Nat.add_assoc]

/-- The number of slots of a field, and of fields of some types, as words that wrap around. -/
def wordWidth (dimension : UInt32) : FieldType → UInt32
  | vector => dimension
  | _ => 1

def wordSpan (dimension : UInt32) : List FieldType → UInt32
  | [] => 0
  | type :: types => type.wordWidth dimension + wordSpan dimension types

def wordPlaces (dimension : UInt32) : UInt32 → List FieldType → List ℕ
  | _, [] => []
  | place, type :: types =>
    place.toNat :: wordPlaces dimension (place + type.wordWidth dimension) types

theorem toNat_wordWidth (dimension : UInt32) (type : FieldType) :
    (type.wordWidth dimension).toNat = type.width dimension.toNat := by
  cases type with
  | vector => rfl
  | number | word | count | code => rfl

theorem toNat_wordSpan {dimension : UInt32} {types : List FieldType}
    (fits : span dimension.toNat types < UInt32.size) :
    (wordSpan dimension types).toNat = span dimension.toNat types := by
  induction types with
  | nil => rfl
  | cons type types ih =>
    rw [span_cons] at fits ⊢
    rw [wordSpan, UInt32.toNat_add, ih (by omega), toNat_wordWidth]
    exact Nat.mod_eq_of_lt fits

end FieldType

structure Field where
  place : ℕ
  type : FieldType

def Field.consecutive (dimension : ℕ) : ℕ → List FieldType → List Field
  | _, [] => []
  | place, type :: types =>
    ⟨place, type⟩ :: consecutive dimension (place + type.width dimension) types

/-- No place wraps around, as long as a word can count the slots. -/
theorem Field.zipWith_wordPlaces {dimension place : UInt32} {types : List FieldType}
    (fits : place.toNat + FieldType.span dimension.toNat types < UInt32.size) :
    List.zipWith Field.mk (FieldType.wordPlaces dimension place types) types =
      consecutive dimension.toNat place.toNat types := by
  induction types generalizing place with
  | nil => rfl
  | cons type types ih =>
    rw [FieldType.span_cons] at fits
    have next : (place + type.wordWidth dimension).toNat =
        place.toNat + type.width dimension.toNat := by
      rw [UInt32.toNat_add, FieldType.toNat_wordWidth]
      exact Nat.mod_eq_of_lt (Nat.lt_of_le_of_lt (by omega) fits)
    rw [FieldType.wordPlaces, List.zipWith_cons_cons, consecutive, ih (by omega), next]

inductive FieldValue (α : Type) where
  | number (value : α)
  | word (value : UInt32)
  | count (value : UInt64)
  | code (value : Int32)
  | vector (entries : List α)

namespace FieldValue

variable {α : Type} [Scalar α]

def type : FieldValue α → FieldType
  | number _ => .number
  | word _ => .word
  | count _ => .count
  | code _ => .code
  | vector _ => .vector

def slots : FieldValue α → Slots α
  | number value => [value]
  | word value => [(value.toNat : α)]
  | count value => [Scalar.ofCount value]
  | code value => [Scalar.ofCode value]
  | vector entries => entries

/-- A count that is not rounded in its slot. Values of other types never are. -/
def Kept : FieldValue α → Prop
  | count value => Scalar.toUInt64 (Scalar.ofCount value : α) = value
  | _ => True

theorem kept_of_lt [Scalar.KeepsCounts α] {value : UInt64} (small : value.toNat < 2 ^ 53) :
    (count value : FieldValue α).Kept :=
  UInt64.toNat_inj.mp (Scalar.KeepsCounts.toUInt64_natCast _ small)

end FieldValue

section Blocks

variable {α : Type}

theorem Editing.writeBlock_append (before : Slots α) {block other : List α}
    (same : block.length = other.length) (behind : Slots α) :
    Editing.writeBlock before.length other (before ++ block ++ behind) =
      .ok () (before ++ other ++ behind) := by
  induction other generalizing before block with
  | nil =>
    rw [List.length_eq_zero_iff.mp same]
    rfl
  | cons number rest ih =>
    obtain ⟨old, older, rfl⟩ := List.exists_cons_of_length_eq_add_one same
    have inside : before.length < (before ++ (old :: older) ++ behind).length := by
      simp only [List.length_append, List.length_cons]
      omega
    have written : Editing.writeSlot before.length number (before ++ (old :: older) ++ behind) =
        .ok () ((before ++ [number]) ++ older ++ behind) := by
      unfold Editing.writeSlot
      rw [if_pos inside]
      simp
    have further := ih (before ++ [number]) (Nat.succ.inj same)
    rw [List.length_append, List.length_singleton] at further
    unfold Editing.writeBlock
    rw [Command.bind_of_ok written, further]
    simp

theorem Slots.readBlock_append (before block behind : Slots α) :
    Slots.readBlock (before ++ block ++ behind) before.length block.length = .ok block := by
  unfold Slots.readBlock
  rw [if_pos (by simp), List.append_assoc, List.drop_left, List.take_left]

theorem Slots.read_append (before : Slots α) (number : α) (behind : Slots α) :
    Slots.read (before ++ [number] ++ behind) before.length = .ok number := by
  unfold Slots.read
  simp

end Blocks

namespace Field

variable {α : Type} [Scalar α]

section Dimension

variable (dimension : ℕ)

def slots (field : Field) : List ℕ :=
  List.range' field.place (field.type.width dimension)

def block (slots : Slots α) (field : Field) : List α :=
  (slots.drop field.place).take (field.type.width dimension)

def read (slots : Slots α) (field : Field) : Except Error (FieldValue α) :=
  match field.type with
  | .number => return .number (← Slots.read slots field.place)
  | .word => return .word (Scalar.toUInt32 (← Slots.read slots field.place))
  | .count => return .count (Scalar.toUInt64 (← Slots.read slots field.place))
  | .code => return .code (Int32.ofInt (Scalar.toCode (← Slots.read slots field.place)))
  | .vector => return .vector (← Slots.readBlock slots field.place dimension)

def write (field : Field) (value : FieldValue α) : Editing α Unit :=
  Editing.writeBlock field.place value.slots

structure Fits (field : Field) (value : FieldValue α) : Prop where
  type : value.type = field.type
  length : value.slots.length = field.type.width dimension

def Holds (slots : Slots α) (field : Field) : Prop :=
  ∃ value : FieldValue α, value.type = field.type ∧ value.Kept ∧
    field.block dimension slots = value.slots

def readAll (fields : List Field) (slots : Slots α) : Except Error (List (FieldValue α)) :=
  fields.mapM (read dimension slots)

def writeAll : List Field → List (FieldValue α) → Editing α Unit
  | field :: fields, value :: values => do
    field.write value
    writeAll fields values
  | _, _ => pure ()

def fresh (size : ℕ) : Slots α :=
  (Vector.zeros size).set 0 (dimension : α)

end Dimension

end Field

/-- Fields that keep what they are written with, for the states of a dimension and a size. -/
structure Lossless (α : Type) [Scalar α] (dimension size : ℕ) (fields : List Field) : Prop where
  apart : fields.Pairwise fun field other =>
    (field.slots dimension).Disjoint (other.slots dimension)
  covers : ∀ slot, slot < size ↔ ∃ field ∈ fields, slot ∈ field.slots dimension
  decodes : ∀ slots : Slots α, slots.length = size →
    (∀ field ∈ fields, field.type.IsInteger → field.Holds dimension slots) →
    ∃ values, Field.readAll dimension fields slots = .ok values ∧
      Field.writeAll fields values (Field.fresh dimension size) = .ok () slots
  encodes : ∀ values : List (FieldValue α), List.Forall₂ (Field.Fits dimension) fields values →
    (∀ value ∈ values, value.Kept) →
    ∃ slots, slots.length = size ∧
      Field.writeAll fields values (Field.fresh dimension size) = .ok () slots ∧
      Field.readAll dimension fields slots = .ok values
  writes : ∀ field ∈ fields, ∀ value : FieldValue α, field.Fits dimension value →
    ∀ slots : Slots α, slots.length = size → ∃ after, field.write value slots = .ok () after ∧
      after.length = size ∧ ∀ slot ∉ field.slots dimension, after[slot]? = slots[slot]?

namespace Field

variable {dimension : ℕ}

section Consecutive

theorem flatMap_slots_consecutive (place : ℕ) (types : List FieldType) :
    (consecutive dimension place types).flatMap (slots dimension) =
      List.range' place (FieldType.span dimension types) := by
  induction types generalizing place with
  | nil => rfl
  | cons type types ih =>
    unfold consecutive
    rw [List.flatMap_cons, ih, FieldType.span_cons]
    exact List.range'_append_1

theorem pairwise_consecutive (place : ℕ) (types : List FieldType) :
    (consecutive dimension place types).Pairwise fun field other =>
      (field.slots dimension).Disjoint (other.slots dimension) := by
  have distinct : ((consecutive dimension place types).flatMap (slots dimension)).Nodup := by
    rw [flatMap_slots_consecutive]
    exact List.nodup_range'
  exact (List.nodup_flatMap.mp distinct).2

theorem mem_slots_consecutive (types : List FieldType) (slot : ℕ) :
    slot < FieldType.span dimension types ↔
      ∃ field ∈ consecutive dimension 0 types, slot ∈ field.slots dimension := by
  rw [← List.mem_flatMap, flatMap_slots_consecutive, List.mem_range'_1]
  omega

theorem consecutive_append (place : ℕ) (types others : List FieldType) :
    consecutive dimension place (types ++ others) = consecutive dimension place types ++
      consecutive dimension (place + FieldType.span dimension types) others := by
  induction types generalizing place with
  | nil => rfl
  | cons type types ih =>
    rw [List.cons_append, consecutive, consecutive, ih, FieldType.span_cons, List.cons_append,
      Nat.add_assoc]

theorem mem_slots_of_width {field : Field} (single : field.type.width dimension = 1) (slot : ℕ) :
    slot ∈ field.slots dimension ↔ slot = field.place := by
  unfold slots
  rw [single, List.mem_range'_1]
  omega

theorem end_le_of_mem {place : ℕ} {types : List FieldType} {field : Field}
    (given : field ∈ consecutive dimension place types) :
    field.place + field.type.width dimension ≤ place + FieldType.span dimension types := by
  induction types generalizing place with
  | nil => cases given
  | cons type types ih =>
    rw [FieldType.span_cons]
    unfold consecutive at given
    rcases List.mem_cons.mp given with rfl | later
    · dsimp only
      omega
    · have inside := ih later
      omega

section Last

variable {types : List FieldType} {type : FieldType} (last : types.getLast? = some type)
  (single : type.width dimension = 1)
include last single

theorem exists_last : ∃ front, consecutive dimension 0 types =
    consecutive dimension 0 front ++ [⟨FieldType.span dimension types - 1, type⟩] ∧
    FieldType.span dimension types = FieldType.span dimension front + 1 := by
  obtain ⟨front, rfl⟩ := List.getLast?_eq_some_iff.mp last
  have whole : FieldType.span dimension (front ++ [type]) = FieldType.span dimension front + 1 := by
    rw [FieldType.span_concat, single]
  refine ⟨front, ?_, whole⟩
  rw [consecutive_append, whole, Nat.zero_add]
  rfl

theorem place_lt_of_mem {field : Field} (given : field ∈ consecutive dimension 0 types) :
    field.place < FieldType.span dimension types := by
  obtain ⟨front, made, whole⟩ := exists_last last single
  rw [made, List.mem_append] at given
  rcases given with before | last
  · have inside := end_le_of_mem before
    omega
  · cases List.mem_singleton.mp last
    dsimp only
    omega

theorem getLast?_consecutive : (consecutive dimension 0 types).getLast? =
    some ⟨FieldType.span dimension types - 1, type⟩ := by
  obtain ⟨front, made, -⟩ := exists_last last single
  rw [made, List.getLast?_append]
  rfl

end Last

variable {α : Type}

def Shaped (dimension : ℕ) : List FieldType → List (List α) → Prop :=
  List.Forall₂ fun type block => block.length = type.width dimension

def renewed (blocks : List (List α)) (changes : List (ℕ × List α)) : List (List α) :=
  changes.foldl (fun blocks change => blocks.set change.1 change.2) blocks

namespace Shaped

variable {type : FieldType} {types : List FieldType} {blocks : List (List α)}

theorem exists_number (single : type.width dimension = 1)
    (shaped : Shaped dimension (type :: types) blocks) :
    ∃ number rest, blocks = [number] :: rest ∧ Shaped dimension types rest := by
  obtain ⟨block, rest, width, further, rfl⟩ := List.forall₂_cons_left_iff.mp shaped
  obtain ⟨number, rfl⟩ := List.length_eq_one_iff.mp (width.trans single)
  exact ⟨number, rest, rfl, further⟩

theorem exists_vector (shaped : Shaped dimension (.vector :: types) blocks) :
    ∃ entries rest, blocks = entries :: rest ∧ entries.length = dimension ∧
      Shaped dimension types rest := by
  obtain ⟨entries, rest, length, further, rfl⟩ := List.forall₂_cons_left_iff.mp shaped
  exact ⟨entries, rest, rfl, length, further⟩

theorem length_flatten (shaped : Shaped dimension types blocks) :
    blocks.flatten.length = FieldType.span dimension types := by
  induction shaped with
  | nil => rfl
  | cons width _ ih =>
    rw [List.flatten_cons, List.length_append, width, ih, FieldType.span_cons]

theorem set (shaped : Shaped dimension types blocks) {place index : ℕ} {field : Field}
    (found : (consecutive dimension place types)[index]? = some field) {other : List α}
    (sized : other.length = field.type.width dimension) :
    Shaped dimension types (blocks.set index other) := by
  induction shaped generalizing place index with
  | nil => cases found
  | cons width rest ih =>
    unfold consecutive at found
    cases index with
    | zero =>
      cases found
      exact .cons sized rest
    | succ index => exact .cons width (ih found)

end Shaped

/-- The numbers of consecutive fields are the blocks that the slots are made of. -/
theorem map_block_consecutive {types : List FieldType} {blocks : List (List α)} (before : Slots α)
    (shaped : Shaped dimension types blocks) :
    (consecutive dimension before.length types).map (block dimension (before ++ blocks.flatten)) =
      blocks := by
  induction shaped generalizing before with
  | nil => rfl
  | @cons type first types rest width shaped ih =>
    have next : before.length + type.width dimension = (before ++ first).length := by
      rw [List.length_append, width]
    have further := ih (before ++ first)
    rw [← next, List.append_assoc] at further
    unfold consecutive
    rw [List.map_cons, List.flatten_cons, further]
    congr 1
    unfold block
    rw [List.drop_left, ← width, List.take_left]

theorem exists_blocks (types : List FieldType) {slots : Slots α}
    (sized : slots.length = FieldType.span dimension types) :
    ∃ blocks, Shaped dimension types blocks ∧ blocks.flatten = slots := by
  induction types generalizing slots with
  | nil => exact ⟨[], .nil, (List.length_eq_zero_iff.mp sized).symm⟩
  | cons type types ih =>
    rw [FieldType.span_cons] at sized
    have rest : (slots.drop (type.width dimension)).length = FieldType.span dimension types := by
      rw [List.length_drop]
      omega
    obtain ⟨blocks, shaped, joined⟩ := ih rest
    refine ⟨slots.take (type.width dimension) :: blocks,
      .cons (List.length_take_of_le (by omega)) shaped, ?_⟩
    rw [List.flatten_cons, joined, List.take_append_drop]

theorem flatMap_block_consecutive (types : List FieldType) {slots : Slots α}
    (sized : slots.length = FieldType.span dimension types) :
    (consecutive dimension 0 types).flatMap (block dimension slots) = slots := by
  obtain ⟨blocks, shaped, rfl⟩ := exists_blocks types sized
  have parts := map_block_consecutive [] shaped
  rw [List.nil_append, List.length_nil] at parts
  rw [List.flatMap_def, parts]

theorem getElem?_flatten_set {types : List FieldType} {blocks : List (List α)}
    (shaped : Shaped dimension types blocks) {place index : ℕ} {field : Field}
    (found : (consecutive dimension place types)[index]? = some field) {other : List α}
    (sized : other.length = field.type.width dimension) {slot : ℕ}
    (outside : place + slot ∉ field.slots dimension) :
    (blocks.set index other).flatten[slot]? = blocks.flatten[slot]? := by
  induction shaped generalizing place index slot with
  | nil => rfl
  | @cons type first types rest width shaped ih =>
    unfold consecutive at found
    cases index with
    | zero =>
      cases found
      have sized : other.length = type.width dimension := sized
      have behind : first.length ≤ slot := by
        unfold slots at outside
        rw [List.mem_range'_1] at outside
        dsimp only at outside
        omega
      rw [List.set_cons_zero, List.flatten_cons, List.flatten_cons,
        List.getElem?_append_right behind, List.getElem?_append_right (by omega), sized, width]
    | succ index =>
      rw [List.set_cons_succ, List.flatten_cons, List.flatten_cons]
      by_cases before : slot < first.length
      · rw [List.getElem?_append_left before, List.getElem?_append_left before]
      · rw [List.getElem?_append_right (by omega), List.getElem?_append_right (by omega)]
        refine ih found ?_
        rwa [show place + type.width dimension + (slot - first.length) = place + slot by omega]

theorem getElem?_flatten_renewed {types : List FieldType} {blocks : List (List α)}
    (shaped : Shaped dimension types blocks) {changes : List (ℕ × List α)} {slot : ℕ}
    (outside : ∀ change ∈ changes, ∃ field,
      (consecutive dimension 0 types)[change.1]? = some field ∧
      change.2.length = field.type.width dimension ∧ slot ∉ field.slots dimension) :
    (renewed blocks changes).flatten[slot]? = blocks.flatten[slot]? := by
  induction changes generalizing blocks with
  | nil => rfl
  | cons change changes ih =>
    obtain ⟨⟨field, found, sized, apart⟩, others⟩ := List.forall_mem_cons.mp outside
    have further := ih (shaped.set found sized) others
    unfold renewed at further ⊢
    rw [List.foldl_cons, further]
    exact getElem?_flatten_set shaped found sized (by rwa [Nat.zero_add])

theorem length_block {field : Field} {slots : Slots α}
    (inside : field.place + field.type.width dimension ≤ slots.length) :
    (field.block dimension slots).length = field.type.width dimension := by
  unfold block
  rw [List.length_take, List.length_drop]
  omega

end Consecutive

variable {α : Type} [Scalar α]

theorem write_append {field : Field} {value : FieldValue α} (fits : field.Fits dimension value)
    {before block : Slots α} (placed : field.place = before.length)
    (sized : block.length = field.type.width dimension) (behind : Slots α) :
    field.write value (before ++ block ++ behind) = .ok () (before ++ value.slots ++ behind) := by
  unfold write
  rw [placed]
  exact Editing.writeBlock_append before (sized.trans fits.length.symm) behind

theorem length_flatMap_slots {place : ℕ} {types : List FieldType} {values : List (FieldValue α)}
    (fit : List.Forall₂ (Fits dimension) (consecutive dimension place types) values) :
    (values.flatMap FieldValue.slots).length = FieldType.span dimension types := by
  induction types generalizing place values with
  | nil =>
    cases fit
    rfl
  | cons type types ih =>
    unfold consecutive at fit
    cases fit with
    | cons first rest =>
      rw [List.flatMap_cons, List.length_append, first.length, ih rest, FieldType.span_cons]

theorem writeAll_consecutive {types : List FieldType} {values : List (FieldValue α)}
    (before : Slots α)
    (fit : List.Forall₂ (Fits dimension) (consecutive dimension before.length types) values)
    {slots : Slots α} (sized : slots.length = FieldType.span dimension types) :
    writeAll (consecutive dimension before.length types) values (before ++ slots) =
      .ok () (before ++ values.flatMap FieldValue.slots) := by
  induction types generalizing before values slots with
  | nil =>
    cases fit
    rw [List.length_eq_zero_iff.mp sized]
    rfl
  | cons type types ih =>
    unfold consecutive at fit ⊢
    cases fit with
    | @cons _ value _ values first rest =>
      rw [FieldType.span_cons] at sized
      have width : (slots.take (type.width dimension)).length = type.width dimension :=
        List.length_take_of_le (by omega)
      have written := write_append first (rfl : _ = before.length) width
        (slots.drop (type.width dimension))
      rw [List.append_assoc, List.take_append_drop] at written
      have next : before.length + type.width dimension = (before ++ value.slots).length := by
        rw [List.length_append, first.length]
      rw [next] at rest ⊢
      unfold writeAll
      rw [Command.bind_of_ok written,
        ih (before ++ value.slots) rest (by rw [List.length_drop]; omega), List.flatMap_cons,
        List.append_assoc]

section Reading

variable [Scalar.KeepsCodes α]

theorem read_append {field : Field} {value : FieldValue α} (fits : field.Fits dimension value)
    (kept : value.Kept) {before : Slots α} (placed : field.place = before.length)
    (behind : Slots α) :
    field.read dimension (before ++ value.slots ++ behind) = .ok value := by
  obtain ⟨place, type⟩ := field
  obtain ⟨same, sized⟩ := fits
  cases same
  cases placed
  unfold read
  cases value with
  | number value => exact congrArg (FieldValue.number <$> ·) (Slots.read_append before value behind)
  | word value =>
    have shown : Scalar.toUInt32 (value.toNat : α) = value :=
      UInt32.toNat_inj.mp (Scalar.KeepsCounts.toUInt32_natCast _ value.toNat_lt)
    dsimp only [FieldValue.type, FieldValue.slots]
    rw [Slots.read_append, Command.ok_bind, shown]
    rfl
  | count value =>
    dsimp only [FieldValue.type, FieldValue.slots]
    rw [Slots.read_append, Command.ok_bind, kept]
    rfl
  | code value =>
    dsimp only [FieldValue.type, FieldValue.slots]
    rw [Slots.read_append, Command.ok_bind, Scalar.toCode_ofCode, Int32.ofInt_toInt]
    rfl
  | vector entries =>
    have sized : entries.length = dimension := sized
    dsimp only [FieldValue.type, FieldValue.slots]
    rw [← sized, Slots.readBlock_append]
    rfl

theorem readAll_consecutive {types : List FieldType} {values : List (FieldValue α)}
    (before : Slots α)
    (fit : List.Forall₂ (Fits dimension) (consecutive dimension before.length types) values)
    (kept : ∀ value ∈ values, value.Kept) :
    readAll dimension (consecutive dimension before.length types)
      (before ++ values.flatMap FieldValue.slots) = .ok values := by
  induction types generalizing before values with
  | nil =>
    cases fit
    rfl
  | cons type types ih =>
    unfold consecutive at fit ⊢
    cases fit with
    | @cons _ value _ values first rest =>
      have next : before.length + type.width dimension = (before ++ value.slots).length := by
        rw [List.length_append, first.length]
      rw [next] at rest ⊢
      have shown := read_append first (kept value List.mem_cons_self) (rfl : _ = before.length)
        (values.flatMap FieldValue.slots)
      have further := ih (before ++ value.slots) rest
        fun value given => kept value (List.mem_cons_of_mem _ given)
      unfold readAll at further ⊢
      rw [List.flatMap_cons, ← List.append_assoc, List.mapM_cons, shown, further]
      rfl

end Reading

/-- Slots whose integer fields hold integers are the slots of some values. -/
theorem exists_values {types : List FieldType} {slots : Slots α}
    (sized : slots.length = FieldType.span dimension types)
    (holds : ∀ field ∈ consecutive dimension 0 types, field.type.IsInteger →
      field.Holds dimension slots) :
    ∃ values : List (FieldValue α),
      List.Forall₂ (Fits dimension) (consecutive dimension 0 types) values ∧
      (∀ value ∈ values, value.Kept) ∧ values.flatMap FieldValue.slots = slots := by
  have some : ∀ field ∈ consecutive dimension 0 types, ∃ value : FieldValue α,
      field.Fits dimension value ∧ value.Kept ∧ value.slots = field.block dimension slots := by
    intro field given
    have inside := end_le_of_mem given
    rw [Nat.zero_add, ← sized] at inside
    have width := length_block inside
    have held : field.Holds dimension slots := by
      cases type : field.type with
      | number =>
        rw [type] at width
        obtain ⟨number, single⟩ := List.length_eq_one_iff.mp width
        exact ⟨.number number, type.symm, trivial, single⟩
      | vector => exact ⟨.vector (field.block dimension slots), type.symm, trivial, rfl⟩
      | word => exact holds field given (by rw [type]; trivial)
      | count => exact holds field given (by rw [type]; trivial)
      | code => exact holds field given (by rw [type]; trivial)
    obtain ⟨value, type, kept, shown⟩ := held
    exact ⟨value, ⟨type, by rw [← shown, width]⟩, kept, shown.symm⟩
  have : Nonempty (FieldValue α) := ⟨.word 0⟩
  choose! valueOf fits kept shown using some
  refine ⟨(consecutive dimension 0 types).map valueOf, ?_, ?_, ?_⟩
  · exact List.forall₂_map_right_iff.mpr (List.forall₂_same.mpr fits)
  · intro value given
    obtain ⟨field, inside, rfl⟩ := List.mem_map.mp given
    exact kept field inside
  · rw [List.flatMap_map, List.flatMap_congr shown]
    exact flatMap_block_consecutive types sized

theorem exists_write {field : Field} {value : FieldValue α} (fits : field.Fits dimension value)
    {slots : Slots α} (inside : field.place + field.type.width dimension ≤ slots.length) :
    ∃ after, field.write value slots = .ok () after ∧ after.length = slots.length ∧
      ∀ slot ∉ field.slots dimension, after[slot]? = slots[slot]? := by
  have front : (slots.take field.place).length = field.place := List.length_take_of_le (by omega)
  have taken : slots.take field.place ++ field.block dimension slots ++
      slots.drop (field.place + field.type.width dimension) = slots := by
    unfold block
    rw [← List.drop_drop, List.append_assoc, List.take_append_drop, List.take_append_drop]
  have written := write_append fits front.symm (length_block inside)
    (slots.drop (field.place + field.type.width dimension))
  rw [taken] at written
  have width := fits.length
  refine ⟨_, written, ?_, ?_⟩
  · rw [List.length_append, List.length_append, front, width, List.length_drop]
    omega
  · intro slot outside
    unfold Field.slots at outside
    rw [List.mem_range'_1, not_and_or] at outside
    rcases outside with before | behind
    · rw [List.append_assoc, List.getElem?_append_left (by omega),
        List.getElem?_take_of_lt (by omega)]
    · rw [List.getElem?_append_right (by rw [List.length_append, front]; omega), List.length_append,
        front, width, List.getElem?_drop]
      congr 1
      omega

end Field

theorem lossless_consecutive {α : Type} [Scalar α] [Scalar.KeepsCodes α] (dimension : ℕ)
    (types : List FieldType) :
    Lossless α dimension (FieldType.span dimension types)
      (Field.consecutive dimension 0 types) := by
  have fresh : (Field.fresh dimension (FieldType.span dimension types) : Slots α).length =
      FieldType.span dimension types := by
    unfold Field.fresh Vector.zeros
    rw [List.length_set, List.length_replicate]
  refine ⟨Field.pairwise_consecutive 0 types, Field.mem_slots_consecutive types, ?_, ?_, ?_⟩
  · intro slots sized holds
    obtain ⟨values, fit, kept, shown⟩ := Field.exists_values sized holds
    have read := Field.readAll_consecutive [] fit kept
    have written := Field.writeAll_consecutive [] fit fresh
    rw [List.nil_append, shown] at read written
    exact ⟨values, read, written⟩
  · intro values fit kept
    have written := Field.writeAll_consecutive [] fit fresh
    have read := Field.readAll_consecutive [] fit kept
    exact ⟨_, Field.length_flatMap_slots fit, written, read⟩
  · intro field given value fits slots sized
    have inside := Field.end_le_of_mem given
    rw [Nat.zero_add, ← sized] at inside
    obtain ⟨after, written, same, others⟩ := Field.exists_write fits inside
    exact ⟨after, written, same.trans sized, others⟩

end ElasticNet
