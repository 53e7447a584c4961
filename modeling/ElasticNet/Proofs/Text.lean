import ElasticNet.Text
import Mathlib.Data.List.DropRight
import Mathlib.Data.List.Forall2

namespace ElasticNet.Text

theorem toNat_of_isBlank {c : Char} (blank : isBlank c = true) : c.toNat ≤ 32 := by
  unfold isBlank at blank
  rw [Bool.or_eq_true, Bool.and_eq_true] at blank
  rcases blank with space | control
  · rw [of_decide_eq_true space]
    decide
  · have high : c.toNat ≤ 13 := of_decide_eq_true control.2
    omega

theorem toLower_of_not_capital {c : Char} (other : c.toNat < 65 ∨ 90 < c.toNat) :
    c.toLower = c := by
  apply dif_neg
  rintro ⟨above, below⟩
  have low : 65 ≤ c.toNat := above
  have high : c.toNat ≤ 90 := below
  omega

theorem eq_of_toLower_eq {c d : Char} (same : c.toLower = d) (early : d.toNat < 97) : c = d := by
  by_cases other : c.toNat < 65 ∨ 90 < c.toNat
  · rwa [toLower_of_not_capital other] at same
  · have letters : ∀ n < 91, 65 ≤ n → 97 ≤ (Char.ofNat n).toLower.toNat := by decide
    have letter := letters c.toNat (by omega) (by omega)
    rw [Char.ofNat_toNat, same] at letter
    omega

def Blank (text : List Char) : Prop :=
  ∀ c ∈ text, isBlank c = true

instance : DecidablePred Blank := fun text =>
  inferInstanceAs (Decidable (∀ c ∈ text, isBlank c = true))

def Pads (part text : List Char) : Prop :=
  ∃ before after, Blank before ∧ Blank after ∧ text = before ++ part ++ after

theorem trim_eq (text : List Char) :
    trim text = (text.dropWhile isBlank).rdropWhile isBlank := rfl

theorem pads_trim (text : List Char) : Pads (trim text) text := by
  refine ⟨text.takeWhile isBlank, (text.dropWhile isBlank).rtakeWhile isBlank, ?_, ?_, ?_⟩
  · exact fun c inside => List.mem_takeWhile_imp inside
  · exact fun c inside => List.mem_rtakeWhile_imp inside
  · rw [trim_eq, List.append_assoc, List.rdropWhile_append_rtakeWhile,
      List.takeWhile_append_dropWhile]

theorem rdropWhile_append_blank (text : List Char) {after : List Char} (blank : Blank after) :
    (text ++ after).rdropWhile isBlank = text.rdropWhile isBlank := by
  unfold List.rdropWhile
  rw [List.reverse_append, List.dropWhile_append_of_pos]
  exact fun c inside => blank c (List.mem_reverse.mp inside)

theorem trim_append_blank (text : List Char) {after : List Char} (blank : Blank after) :
    trim (text ++ after) = trim text := by
  rw [trim_eq, trim_eq, List.dropWhile_append]
  split
  · next empty =>
    rw [List.isEmpty_iff.mp empty, List.dropWhile_eq_nil_iff.mpr blank]
  · exact rdropWhile_append_blank _ blank

theorem trim_blank_append {before : List Char} (blank : Blank before) (text : List Char) :
    trim (before ++ text) = trim text := by
  rw [trim_eq, trim_eq, List.dropWhile_append_of_pos blank]

theorem Pads.trim_eq {part text : List Char} (pads : Pads part text) : trim text = trim part := by
  obtain ⟨before, after, first, last, rfl⟩ := pads
  rw [trim_append_blank _ last, trim_blank_append first]

theorem trim_trim (text : List Char) : trim (trim text) = trim text :=
  (pads_trim text).trim_eq.symm

theorem trim_dropWhile (text : List Char) : trim (text.dropWhile isBlank) = trim text := by
  have blank : Blank (text.takeWhile isBlank) := fun c inside => List.mem_takeWhile_imp inside
  rw [← trim_blank_append blank, List.takeWhile_append_dropWhile]

theorem trim_rdropWhile (text : List Char) : trim (text.rdropWhile isBlank) = trim text := by
  have blank : Blank (text.rtakeWhile isBlank) := fun c inside => List.mem_rtakeWhile_imp inside
  rw [← trim_append_blank _ blank, List.rdropWhile_append_rtakeWhile]

theorem dropWhile_around {c : Char} (shown : ¬isBlank c = true) (first last : List Char) :
    (first ++ c :: last).dropWhile isBlank = first.dropWhile isBlank ++ c :: last := by
  rw [List.dropWhile_append]
  split
  · next empty => rw [List.isEmpty_iff.mp empty, List.dropWhile_cons_of_neg shown, List.nil_append]
  · rfl

theorem trim_around {c : Char} (shown : ¬isBlank c = true) (first last : List Char) :
    trim (first ++ c :: last) = first.dropWhile isBlank ++ c :: last.rdropWhile isBlank := by
  rw [trim_eq, dropWhile_around shown]
  unfold List.rdropWhile
  have reversed : (first.dropWhile isBlank ++ c :: last).reverse =
      last.reverse ++ c :: (first.dropWhile isBlank).reverse := by simp
  rw [reversed, dropWhile_around shown]
  simp

theorem map_trim_of_pads {parts texts : List (List Char)} (pads : List.Forall₂ Pads parts texts) :
    texts.map trim = parts.map trim := by
  induction pads with
  | nil => rfl
  | cons first _ ih => rw [List.map_cons, List.map_cons, first.trim_eq, ih]

theorem forall₂_pads_trim (texts : List (List Char)) :
    List.Forall₂ Pads (texts.map trim) texts :=
  List.forall₂_map_left_iff.mpr (List.forall₂_same.mpr fun text _ => pads_trim text)

theorem map_toList_ofList (texts : List (List Char)) :
    (texts.map String.ofList).map String.toList = texts := by
  rw [List.map_map]
  exact (List.map_congr_left fun _ _ => String.toList_ofList).trans (List.map_id' texts)

theorem map_ofList_toList (texts : List String) :
    (texts.map String.toList).map String.ofList = texts := by
  rw [List.map_map]
  exact (List.map_congr_left fun _ _ => String.ofList_toList).trans (List.map_id' texts)

theorem trim_eq_nil_iff (text : List Char) : trim text = [] ↔ Blank text := by
  constructor
  · intro empty
    obtain ⟨before, after, first, last, whole⟩ := pads_trim text
    rw [empty, List.append_nil] at whole
    intro c inside
    rw [whole] at inside
    exact (List.mem_append.mp inside).elim (first c) (last c)
  · intro blank
    exact trim_append_blank [] blank

end ElasticNet.Text
