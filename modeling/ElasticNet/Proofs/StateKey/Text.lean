import ElasticNet.Proofs.StateKey
import Mathlib.Data.List.DropRight
import Std.Data.String.ToNat

namespace ElasticNet

theorem utf8Bytes_append (text more : String) :
    utf8Bytes (text ++ more) = utf8Bytes text ++ utf8Bytes more := by
  rw [utf8Bytes_eq, utf8Bytes_eq, utf8Bytes_eq, String.toList_append, List.flatMap_append]

theorem utf8Bytes_injective : Function.Injective utf8Bytes := by
  intro text other same
  apply String.toByteArray_inj.mp
  apply ByteArray.ext
  exact Array.toList_inj.mp same

def isDigitByte (byte : UInt8) : Bool :=
  48 ≤ byte.toNat && byte.toNat ≤ 57

theorem isDigitByte_of_mem {c : Char} (digit : c.isDigit = true) {byte : UInt8}
    (inside : byte ∈ String.utf8EncodeChar c) : isDigitByte byte = true := by
  obtain ⟨low, high⟩ := Char.isDigit_iff_toNat.mp digit
  have first : 48 ≤ c.val.toNat := low
  have last : c.val.toNat ≤ 57 := high
  unfold String.utf8EncodeChar at inside
  dsimp only at inside
  rw [if_pos (by omega), List.mem_singleton] at inside
  have value : byte.toNat = c.val.toNat := by
    rw [inside, UInt8.toNat_ofNat']
    omega
  unfold isDigitByte
  rw [value, Bool.and_eq_true, decide_eq_true_eq, decide_eq_true_eq]
  exact ⟨first, last⟩

theorem isDigitByte_of_mem_number {n : Nat} {byte : UInt8}
    (inside : byte ∈ utf8Bytes (toString n)) : isDigitByte byte = true := by
  rw [utf8Bytes_eq, Nat.toString_eq_repr, Nat.toList_repr] at inside
  obtain ⟨c, digit, own⟩ := List.mem_flatMap.mp inside
  exact isDigitByte_of_mem (Nat.isDigit_of_mem_toDigits (by decide) (by decide) digit) own

theorem rtakeWhile_append_cons {α : Type} {p : α → Bool} (front : List α) {stop : α}
    (stops : ¬p stop = true) {last : List α} (all : ∀ x ∈ last, p x = true) :
    (front ++ stop :: last).rtakeWhile p = last := by
  have reversed : (front ++ stop :: last).reverse = last.reverse ++ stop :: front.reverse := by
    rw [List.reverse_append, List.reverse_cons, List.append_assoc, List.singleton_append]
  unfold List.rtakeWhile
  rw [reversed, List.takeWhile_append_of_pos fun x inside => all x (List.mem_reverse.mp inside),
    List.takeWhile_cons_of_neg stops, List.append_nil, List.reverse_reverse]

/-- A number behind a comma and a blank is read back from the end, and so is what is in front. -/
theorem append_number_inj {front other : List UInt8} {m n : Nat} :
    front ++ utf8Bytes ", " ++ utf8Bytes (toString m) =
      other ++ utf8Bytes ", " ++ utf8Bytes (toString n) ↔ front = other ∧ m = n := by
  have separator : utf8Bytes ", " = [44, 32] := rfl
  have last (front : List UInt8) (n : Nat) :
      (front ++ utf8Bytes ", " ++ utf8Bytes (toString n)).rtakeWhile isDigitByte =
        utf8Bytes (toString n) := by
    have cut : front ++ utf8Bytes ", " ++ utf8Bytes (toString n) =
        (front ++ [44]) ++ 32 :: utf8Bytes (toString n) := by
      rw [separator]
      simp
    rw [cut]
    exact rtakeWhile_append_cons _ (by decide) fun _ => isDigitByte_of_mem_number
  constructor
  · intro same
    have digits : utf8Bytes (toString m) = utf8Bytes (toString n) := by
      rw [← last front m, same, last other n]
    rw [digits] at same
    refine ⟨List.append_cancel_right (List.append_cancel_right same), ?_⟩
    exact Nat.repr_inj.mp (utf8Bytes_injective digits)
  · rintro ⟨rfl, rfl⟩
    rfl

namespace StateKey

def groupBytes : Option (List UInt8) → List UInt8
  | some name => utf8Bytes "\"" ++ name ++ utf8Bytes "\""
  | none => utf8Bytes "none"

def textBytes (group : Option (List UInt8)) (position iteration : Nat) : List UInt8 :=
  utf8Bytes "(" ++ groupBytes group ++ utf8Bytes ", " ++ utf8Bytes (toString position)
    ++ utf8Bytes ", " ++ utf8Bytes (toString iteration) ++ utf8Bytes ")"

theorem utf8Bytes_text (key : StateKey) :
    utf8Bytes key.text = textBytes (key.group.map utf8Bytes) key.position key.iteration := by
  obtain ⟨group, position, iteration⟩ := key
  cases group with
  | none => simp only [text, textBytes, groupBytes, utf8Bytes_append, Option.map_none]
  | some name => simp only [text, textBytes, groupBytes, utf8Bytes_append, Option.map_some]

theorem groupBytes_injective : Function.Injective groupBytes := by
  have quote : utf8Bytes "\"" = [34] := rfl
  have none : utf8Bytes "none" = [110, 111, 110, 101] := rfl
  intro group other same
  cases group with
  | none =>
    cases other with
    | none => rfl
    | some later => simp [groupBytes, quote, none] at same
  | some name =>
    cases other with
    | none => simp [groupBytes, quote, none] at same
    | some later =>
      have names := List.append_cancel_left (List.append_cancel_right same)
      exact congrArg some names

theorem textBytes_inj {group other : Option (List UInt8)} {position iteration : Nat}
    {otherPosition otherIteration : Nat} :
    textBytes group position iteration = textBytes other otherPosition otherIteration ↔
      group = other ∧ position = otherPosition ∧ iteration = otherIteration := by
  unfold textBytes
  rw [List.append_left_inj, append_number_inj, append_number_inj, List.append_right_inj,
    groupBytes_injective.eq_iff, and_assoc]

/-- No two keys are written alike, whatever the names of groups look like: not as texts, and not as
    bytes where the names are bytes that need not be text at all. -/
theorem text_eq_iff :
    (∀ key other : StateKey, key.text = other.text ↔ key = other) ∧
    (∀ key : StateKey, utf8Bytes key.text =
      textBytes (key.group.map utf8Bytes) key.position key.iteration) ∧
    ∀ (group other : Option (List UInt8)) (position otherPosition iteration otherIteration : Nat),
      textBytes group position iteration = textBytes other otherPosition otherIteration ↔
        group = other ∧ position = otherPosition ∧ iteration = otherIteration := by
  refine ⟨fun key other => ?_, utf8Bytes_text, fun _ _ _ _ _ _ => textBytes_inj⟩
  rw [← utf8Bytes_injective.eq_iff, utf8Bytes_text, utf8Bytes_text, textBytes_inj,
    (Option.map_injective utf8Bytes_injective).eq_iff, StateKey.mk.injEq]

example : text ⟨some "a\", 1, 2", 3, 4⟩ = "(\"a\", 1, 2\", 3, 4)" := by decide

end StateKey

end ElasticNet
