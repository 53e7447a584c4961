import ElasticNet.Proofs.Text

namespace ElasticNet.Text

variable {separator : Char}

theorem pieces_eq_splitOn (separator : Char) (text : List Char) :
    pieces separator text = text.splitOn separator := by
  induction text with
  | nil => rfl
  | cons c rest ih =>
    unfold List.splitOn at ih ⊢
    rw [List.splitOnP_cons_eq_if_modifyHead, pieces, ih]
    by_cases same : c = separator
    · rw [if_pos same, if_pos (beq_iff_eq.mpr same)]
    · rw [if_neg same, if_neg (same ∘ beq_iff_eq.mp)]
      obtain ⟨piece, more, cut⟩ := List.exists_cons_of_ne_nil
        (List.splitOn_ne_nil separator rest)
      unfold List.splitOn at cut
      rw [cut]
      rfl

theorem pieces_ne_nil (separator : Char) (text : List Char) : pieces separator text ≠ [] := by
  rw [pieces_eq_splitOn]
  exact List.splitOn_ne_nil _ _

theorem pieces_cons {c : Char} (other : c ≠ separator) (rest : List Char) :
    ∃ piece more, pieces separator rest = piece :: more ∧
      pieces separator (c :: rest) = (c :: piece) :: more := by
  obtain ⟨piece, more, cut⟩ := List.exists_cons_of_ne_nil (pieces_ne_nil separator rest)
  refine ⟨piece, more, cut, ?_⟩
  rw [pieces, if_neg other, cut]

theorem pieces_separator (rest : List Char) :
    pieces separator (separator :: rest) = [] :: pieces separator rest := by
  rw [pieces, if_pos rfl]

theorem notMem_of_mem_pieces {text piece : List Char} (inside : piece ∈ pieces separator text) :
    separator ∉ piece := by
  induction text generalizing piece with
  | nil =>
    obtain rfl := List.mem_singleton.mp inside
    exact List.not_mem_nil
  | cons c rest ih =>
    by_cases same : c = separator
    · subst c
      rw [pieces_separator] at inside
      rcases List.mem_cons.mp inside with rfl | later
      · exact List.not_mem_nil
      · exact ih later
    · obtain ⟨first, more, cut, put⟩ := pieces_cons same rest
      rw [put] at inside
      rw [cut] at ih
      rcases List.mem_cons.mp inside with rfl | later
      · rw [List.mem_cons, not_or]
        exact ⟨Ne.symm same, ih List.mem_cons_self⟩
      · exact ih (List.mem_cons_of_mem _ later)

/-- The pieces of a text: some of them, without the separator in any, that it joins to the text. -/
structure SeparatedBy (separator : Char) (parts : List (List Char)) (text : List Char) : Prop where
  nonempty : parts ≠ []
  apart : ∀ part ∈ parts, separator ∉ part
  joined : [separator].intercalate parts = text

/-- There is just one way to separate a text. -/
theorem separatedBy_iff {parts : List (List Char)} {text : List Char} :
    SeparatedBy separator parts text ↔ pieces separator text = parts := by
  constructor
  · intro separated
    rw [pieces_eq_splitOn, ← separated.joined]
    exact List.splitOn_intercalate separator separated.apart separated.nonempty
  · rintro rfl
    refine ⟨pieces_ne_nil separator text, fun _ => notMem_of_mem_pieces, ?_⟩
    rw [pieces_eq_splitOn]
    exact List.intercalate_splitOn separator

theorem length_pieces (separator : Char) (text : List Char) :
    (pieces separator text).length = text.count separator + 1 := by
  induction text with
  | nil => rfl
  | cons c rest ih =>
    by_cases same : c = separator
    · subst c
      rw [pieces_separator, List.length_cons, ih, List.count_cons_self]
    · obtain ⟨piece, more, cut, put⟩ := pieces_cons same rest
      rw [put, List.count_cons_of_ne same, ← ih, cut, List.length_cons, List.length_cons]

theorem count_blank {text : List Char} (blank : Blank text) (shown : ¬ isBlank separator = true) :
    text.count separator = 0 :=
  List.count_eq_zero.mpr fun inside => shown (blank separator inside)

theorem Pads.count_eq {part text : List Char} (pads : Pads part text)
    (shown : ¬ isBlank separator = true) : text.count separator = part.count separator := by
  obtain ⟨before, after, first, last, rfl⟩ := pads
  rw [List.count_append, List.count_append, count_blank first shown, count_blank last shown]
  omega

theorem map_trim_pieces_blank_append {before : List Char} (blank : Blank before)
    (shown : ¬ isBlank separator = true) (text : List Char) :
    (pieces separator (before ++ text)).map trim = (pieces separator text).map trim := by
  induction before with
  | nil => rfl
  | cons c rest ih =>
    obtain ⟨first, later⟩ := List.forall_mem_cons.mp blank
    have other : c ≠ separator := fun same => shown (same ▸ first)
    obtain ⟨piece, more, cut, put⟩ := pieces_cons other (rest ++ text)
    have single : Blank [c] := List.forall_mem_singleton.mpr first
    have trimmed : trim (c :: piece) = trim piece := trim_blank_append single piece
    rw [List.cons_append, put, List.map_cons, trimmed, ← List.map_cons, ← cut, ih later]

theorem pieces_append {after : List Char} (single : separator ∉ after) (text : List Char) :
    ∃ front last, pieces separator text = front ++ [last] ∧
      pieces separator (text ++ after) = front ++ [last ++ after] := by
  induction text with
  | nil =>
    refine ⟨[], [], rfl, ?_⟩
    rw [List.nil_append, pieces_eq_splitOn, List.splitOn_eq_singleton single]
    rfl
  | cons c rest ih =>
    obtain ⟨front, last, cut, appended⟩ := ih
    by_cases same : c = separator
    · subst c
      refine ⟨[] :: front, last, ?_, ?_⟩
      · rw [pieces_separator, cut, List.cons_append]
      · rw [List.cons_append, pieces_separator, appended, List.cons_append]
    · obtain ⟨piece, more, first, put⟩ := pieces_cons same rest
      obtain ⟨longer, others, firstToo, putToo⟩ := pieces_cons same (rest ++ after)
      rw [cut] at first
      rw [appended] at firstToo
      rw [put, List.cons_append, putToo]
      cases front with
      | nil =>
        obtain ⟨rfl, rfl⟩ := List.cons.inj first
        obtain ⟨rfl, rfl⟩ := List.cons.inj firstToo
        exact ⟨[], c :: last, rfl, rfl⟩
      | cons head tail =>
        obtain ⟨rfl, rfl⟩ := List.cons.inj first
        obtain ⟨rfl, rfl⟩ := List.cons.inj firstToo
        exact ⟨(c :: head) :: tail, last, rfl, rfl⟩

theorem Pads.map_trim_pieces {part text : List Char} (pads : Pads part text)
    (shown : ¬ isBlank separator = true) :
    (pieces separator text).map trim = (pieces separator part).map trim := by
  obtain ⟨before, after, first, last, rfl⟩ := pads
  have single : separator ∉ after := fun inside => shown (last separator inside)
  obtain ⟨front, final, cut, appended⟩ := pieces_append single part
  rw [List.append_assoc, map_trim_pieces_blank_append first shown, appended, cut, List.map_append,
    List.map_append, List.map_singleton, List.map_singleton, trim_append_blank final last]

theorem trim_eq_self {text : List Char} (first : ∀ c ∈ text.head?, ¬ isBlank c = true)
    (last : ∀ c ∈ text.getLast?, ¬ isBlank c = true) : trim text = text := by
  have kept : text.dropWhile isBlank = text := by
    rw [List.dropWhile_eq_self_iff]
    intro long
    apply first
    rw [List.head?_eq_getElem?]
    exact List.getElem?_eq_getElem long
  rw [trim_eq, kept, List.rdropWhile_eq_self_iff]
  intro some
  apply last
  exact List.getLast?_eq_some_getLast some

end ElasticNet.Text
