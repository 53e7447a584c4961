import ElasticNet.Params
import ElasticNet.Proofs.Text

namespace ElasticNet.Params

def openings (text : List Char) : Nat :=
  text.countP isOpening

def closings (text : List Char) : Nat :=
  text.countP isClosing

def Enclosed (kind : Char → Prop) (depth : Nat) (text : List Char) : Prop :=
  ∀ before c after, text = before ++ c :: after → kind c →
    closings before < depth + openings before

/-- Every bracket that closes has an earlier one to close, and every open bracket is closed. The
    kinds of brackets are not told apart. -/
structure Balanced (depth : Nat) (text : List Char) : Prop where
  matched : Enclosed (fun c => isClosing c = true) depth text
  closed : depth + openings text = closings text

/-- A text without a comma outside all brackets. -/
structure Segment (depth : Nat) (text : List Char) : Prop extends Balanced depth text where
  whole : Enclosed (fun c => c = ',') depth text

theorem openings_cons (c : Char) (rest : List Char) :
    openings (c :: rest) = openings [c] + openings rest := by
  unfold openings
  rw [← List.countP_append, List.singleton_append]

theorem closings_cons (c : Char) (rest : List Char) :
    closings (c :: rest) = closings [c] + closings rest := by
  unfold closings
  rw [← List.countP_append, List.singleton_append]

theorem openings_of_opening {c : Char} (opening : isOpening c = true) : openings [c] = 1 :=
  List.countP_cons_of_pos opening

theorem openings_of_not {c : Char} (other : ¬isOpening c = true) : openings [c] = 0 :=
  List.countP_cons_of_neg other

theorem closings_of_closing {c : Char} (closing : isClosing c = true) : closings [c] = 1 :=
  List.countP_cons_of_pos closing

theorem closings_of_not {c : Char} (other : ¬isClosing c = true) : closings [c] = 0 :=
  List.countP_cons_of_neg other

theorem not_closing_of_opening {c : Char} (opening : isOpening c = true) :
    ¬isClosing c = true := by
  unfold isOpening at opening
  simp only [Bool.or_eq_true, decide_eq_true_eq] at opening
  rcases opening with (rfl | rfl) | rfl <;> decide

section Cons

variable {depth next : Nat} {c : Char} {rest : List Char}
  (moved : next + closings [c] = depth + openings [c])
include moved

theorem enclosed_cons_iff (kind : Char → Prop) :
    Enclosed kind depth (c :: rest) ↔ (kind c → 0 < depth) ∧ Enclosed kind next rest := by
  constructor
  · intro enclosed
    refine ⟨fun first => enclosed [] c rest rfl first, ?_⟩
    intro before other after cut holds
    have inside := enclosed (c :: before) other after (congrArg (c :: ·) cut) holds
    rw [openings_cons, closings_cons] at inside
    omega
  · rintro ⟨first, later⟩ before other after cut holds
    cases before with
    | nil =>
      obtain ⟨rfl, _⟩ := List.cons.inj cut
      exact first holds
    | cons head before =>
      obtain ⟨rfl, rest⟩ := List.cons.inj cut
      have inside := later before other after rest holds
      rw [openings_cons, closings_cons]
      omega

theorem balanced_cons_iff :
    Balanced depth (c :: rest) ↔ (isClosing c = true → 0 < depth) ∧ Balanced next rest := by
  have total : depth + openings (c :: rest) = closings (c :: rest) ↔
      next + openings rest = closings rest := by
    rw [openings_cons, closings_cons]
    omega
  constructor
  · intro balanced
    obtain ⟨first, later⟩ := (enclosed_cons_iff moved _).mp balanced.matched
    exact ⟨first, later, total.mp balanced.closed⟩
  · rintro ⟨first, later⟩
    exact ⟨(enclosed_cons_iff moved _).mpr ⟨first, later.matched⟩, total.mpr later.closed⟩

theorem segment_cons_iff :
    Segment depth (c :: rest) ↔
      (isClosing c = true → 0 < depth) ∧ (c = ',' → 0 < depth) ∧ Segment next rest := by
  constructor
  · intro segment
    obtain ⟨closing, balanced⟩ := (balanced_cons_iff moved).mp segment.toBalanced
    obtain ⟨comma, whole⟩ := (enclosed_cons_iff moved _).mp segment.whole
    exact ⟨closing, comma, balanced, whole⟩
  · rintro ⟨closing, comma, later⟩
    exact ⟨(balanced_cons_iff moved).mpr ⟨closing, later.toBalanced⟩,
      (enclosed_cons_iff moved _).mpr ⟨comma, later.whole⟩⟩

end Cons

theorem balanced_nil_iff (depth : Nat) : Balanced depth [] ↔ depth = 0 := by
  constructor
  · exact fun balanced => balanced.closed
  · rintro rfl
    exact ⟨by simp [Enclosed], rfl⟩

theorem segment_nil_iff (depth : Nat) : Segment depth [] ↔ depth = 0 := by
  constructor
  · exact fun segment => segment.closed
  · rintro rfl
    exact ⟨(balanced_nil_iff 0).mpr rfl, by simp [Enclosed]⟩

theorem reading (depth : Nat) (c : Char) :
    (isClosing c = true ∧ depth = 0) ∨ (c = ',' ∧ depth = 0) ∨
      ∃ next, next + closings [c] = depth + openings [c] ∧ (isClosing c = true → 0 < depth) ∧
        (c = ',' → 0 < depth) := by
  by_cases outside : depth = 0
  · by_cases closing : isClosing c = true
    · exact .inl ⟨closing, outside⟩
    · by_cases comma : c = ','
      · exact .inr (.inl ⟨comma, outside⟩)
      · refine .inr (.inr ⟨depth + openings [c], ?_, (absurd · closing), (absurd · comma)⟩)
        rw [closings_of_not closing, Nat.add_zero]
  · have positive : 0 < depth := Nat.pos_of_ne_zero outside
    have one : closings [c] ≤ 1 := List.countP_le_length
    exact .inr (.inr ⟨depth + openings [c] - closings [c], by omega, fun _ => positive,
      fun _ => positive⟩)

theorem not_balanced_of_unmatched {c : Char} (closing : isClosing c = true) (rest : List Char) :
    ¬Balanced 0 (c :: rest) :=
  fun balanced => absurd (balanced.matched [] c rest rfl closing) (Nat.lt_irrefl 0)

theorem not_segment_of_unmatched {c : Char} (closing : isClosing c = true) (rest : List Char) :
    ¬Segment 0 (c :: rest) :=
  fun segment => not_balanced_of_unmatched closing rest segment.toBalanced

theorem not_segment_of_comma (rest : List Char) : ¬Segment 0 (',' :: rest) :=
  fun segment => absurd (segment.whole [] ',' rest rfl rfl) (Nat.lt_irrefl 0)

def isMark (c : Char) : Bool :=
  isOpening c || isClosing c || c = ','

theorem not_mark_iff (c : Char) :
    ¬isMark c = true ↔ ¬isOpening c = true ∧ ¬isClosing c = true ∧ c ≠ ',' := by
  simp [isMark, and_assoc]

theorem segment_marks_iff (depth : Nat) (text : List Char) :
    Segment depth (text.filter isMark) ↔ Segment depth text := by
  induction text generalizing depth with
  | nil => exact Iff.rfl
  | cons c rest ih =>
    by_cases mark : isMark c = true
    · rw [List.filter_cons_of_pos mark]
      rcases reading depth c with ⟨closing, rfl⟩ | ⟨rfl, rfl⟩ | ⟨next, moved, _, _⟩
      · exact iff_of_false (not_segment_of_unmatched closing _) (not_segment_of_unmatched closing _)
      · exact iff_of_false (not_segment_of_comma _) (not_segment_of_comma _)
      · rw [segment_cons_iff moved, segment_cons_iff moved, ih]
    · obtain ⟨opening, closing, comma⟩ := (not_mark_iff c).mp mark
      have moved : depth + closings [c] = depth + openings [c] := by
        rw [closings_of_not closing, openings_of_not opening]
      rw [List.filter_cons_of_neg mark, segment_cons_iff moved, ih]
      exact ⟨fun segment => ⟨(absurd · closing), (absurd · comma), segment⟩, fun parts => parts.2.2⟩

/-- Whether a text is a segment depends on its brackets and commas alone. -/
theorem segment_congr {text other : List Char} (marks : text.filter isMark = other.filter isMark)
    (depth : Nat) : Segment depth text ↔ Segment depth other := by
  rw [← segment_marks_iff, marks, segment_marks_iff]

theorem marks_of_blank {text : List Char} (blank : Text.Blank text) :
    text.filter isMark = [] := by
  refine List.filter_eq_nil_iff.mpr fun c inside mark => ?_
  have space := blank c inside
  simp only [isMark, isOpening, isClosing, Bool.or_eq_true, decide_eq_true_eq] at mark
  rcases mark with (((rfl | rfl) | rfl) | ((rfl | rfl) | rfl)) | rfl <;>
    exact absurd space (by decide)

theorem marks_of_pads {part text : List Char} (pads : Text.Pads part text) :
    text.filter isMark = part.filter isMark := by
  obtain ⟨before, after, first, last, rfl⟩ := pads
  rw [List.filter_append, List.filter_append, marks_of_blank first, marks_of_blank last,
    List.nil_append, List.append_nil]

theorem segment_of_pads {part text : List Char} (pads : Text.Pads part text) (depth : Nat) :
    Segment depth text ↔ Segment depth part :=
  segment_congr (marks_of_pads pads) depth

theorem marks_trim (text : List Char) :
    (Text.trim text).filter isMark = text.filter isMark :=
  (marks_of_pads (Text.pads_trim text)).symm

theorem toLower_of_mark {c : Char} (mark : isMark c.toLower = true ∨ isMark c = true) :
    c.toLower = c := by
  by_contra changed
  have capital : 65 ≤ c.toNat ∧ c.toNat ≤ 90 := by
    by_contra other
    exact changed (Text.toLower_of_not_capital (by omega))
  have letters : ∀ n < 91, 65 ≤ n →
      isMark (Char.ofNat n).toLower = false ∧ isMark (Char.ofNat n) = false := by decide
  have letter := letters c.toNat (Nat.lt_succ_of_le capital.2) capital.1
  rw [Char.ofNat_toNat] at letter
  simp [letter] at mark

theorem marks_lower (text : List Char) :
    (Text.lower text).filter isMark = text.filter isMark := by
  induction text with
  | nil => rfl
  | cons c rest ih =>
    change (c.toLower :: Text.lower rest).filter isMark = _
    by_cases same : c.toLower = c
    · rw [same, List.filter_cons, List.filter_cons, ih]
    · have plain := fun mark => same (toLower_of_mark mark)
      rw [List.filter_cons_of_neg fun mark => plain (.inl mark),
        List.filter_cons_of_neg fun mark => plain (.inr mark), ih]

end ElasticNet.Params
