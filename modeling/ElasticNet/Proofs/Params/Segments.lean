import ElasticNet.Proofs.Params.Brackets
import ElasticNet.Proofs.Params.Errors

namespace ElasticNet.Params

section Cons

variable {depth next : Nat} {c : Char} {rest : List Char}

theorem segments?_cons (moved : next + closings [c] = depth + openings [c])
    (closing : isClosing c = true → 0 < depth) (comma : c = ',' → 0 < depth) :
    segments? depth (c :: rest) = (segments? next rest).map (consFirst c) := by
  rw [segments?]
  split
  · next opens =>
    rw [openings_of_opening opens, closings_of_not (not_closing_of_opening opens)] at moved
    rw [← moved]
    rfl
  · next other =>
    rw [openings_of_not other] at moved
    split
    · next closes =>
      rw [closings_of_closing closes] at moved
      rw [if_neg (Nat.ne_of_gt (closing closes)), ← Nat.add_zero depth, ← moved,
        Nat.add_sub_cancel]
    · next closes =>
      rw [closings_of_not closes] at moved
      rw [if_neg fun separates => absurd (comma separates.1) (by omega), ← Nat.add_zero depth,
        ← moved]
      rfl

theorem segments?_unmatched (closing : isClosing c = true) : segments? 0 (c :: rest) = none := by
  rw [segments?, if_neg fun opening => not_closing_of_opening opening closing, if_pos closing]
  rfl

theorem segments?_comma (rest : List Char) :
    segments? 0 (',' :: rest) = (segments? 0 rest).map ([] :: ·) := by
  rw [segments?]
  rfl

theorem segments?_cons_eq_some {segments : List (List Char)}
    (cut : segments? depth (c :: rest) = some segments) :
    (∃ later, c = ',' ∧ depth = 0 ∧ segments? 0 rest = some later ∧ segments = [] :: later) ∨
      ∃ next later, next + closings [c] = depth + openings [c] ∧
        (isClosing c = true → 0 < depth) ∧ (c = ',' → 0 < depth) ∧
        segments? next rest = some later ∧ segments = consFirst c later := by
  rcases reading depth c with ⟨closing, rfl⟩ | ⟨rfl, rfl⟩ | ⟨next, moved, closing, comma⟩
  · rw [segments?_unmatched closing] at cut
    cases cut
  · rw [segments?_comma, Option.map_eq_some_iff] at cut
    obtain ⟨later, given, rfl⟩ := cut
    exact .inl ⟨later, rfl, rfl, given, rfl⟩
  · rw [segments?_cons moved closing comma, Option.map_eq_some_iff] at cut
    obtain ⟨later, given, rfl⟩ := cut
    exact .inr ⟨next, later, moved, closing, comma, given, rfl⟩

end Cons

/-- A text is cut if and only if its brackets are balanced. -/
theorem isSome_segments?_iff (depth : Nat) (text : List Char) :
    (segments? depth text).isSome = true ↔ Balanced depth text := by
  induction text generalizing depth with
  | nil =>
    rw [balanced_nil_iff, segments?]
    split
    · next zero => exact iff_of_true rfl zero
    · next inside => exact iff_of_false Bool.false_ne_true inside
  | cons c rest ih =>
    rcases reading depth c with ⟨closing, rfl⟩ | ⟨rfl, rfl⟩ | ⟨next, moved, closing, comma⟩
    · rw [segments?_unmatched closing]
      exact iff_of_false Bool.false_ne_true (not_balanced_of_unmatched closing rest)
    · have moved : 0 + closings [','] = 0 + openings [','] := rfl
      rw [segments?_comma, Option.isSome_map, ih, balanced_cons_iff moved]
      exact (and_iff_right nofun).symm
    · rw [segments?_cons moved closing comma, Option.isSome_map, ih, balanced_cons_iff moved,
        and_iff_right closing]

theorem consFirst_ne_nil (c : Char) (segments : List (List Char)) : consFirst c segments ≠ [] := by
  cases segments <;> exact List.cons_ne_nil _ _

theorem join_consFirst (separator : List Char) (c : Char) {segments : List (List Char)}
    (some : segments ≠ []) :
    Text.join separator (consFirst c segments) = c :: Text.join separator segments := by
  match segments, some with
  | [_], _ => rfl
  | _ :: _ :: _, _ => rfl

theorem join_nil_cons (separator : List Char) {segments : List (List Char)}
    (some : segments ≠ []) :
    Text.join separator ([] :: segments) = separator ++ Text.join separator segments := by
  match segments, some with
  | _ :: _, _ => rfl

theorem join_segments? {depth : Nat} {text : List Char} {segments : List (List Char)}
    (cut : segments? depth text = some segments) :
    segments ≠ [] ∧ Text.join [','] segments = text := by
  induction text generalizing depth segments with
  | nil =>
    rw [segments?, Option.ite_none_right_eq_some] at cut
    cases cut.2
    exact ⟨List.cons_ne_nil _ _, rfl⟩
  | cons c rest ih =>
    rcases segments?_cons_eq_some cut with
      ⟨later, rfl, rfl, given, rfl⟩ | ⟨next, later, _, _, _, given, rfl⟩
    · obtain ⟨some, joined⟩ := ih given
      exact ⟨List.cons_ne_nil _ _, (join_nil_cons _ some).trans (congrArg (',' :: ·) joined)⟩
    · obtain ⟨some, joined⟩ := ih given
      exact ⟨consFirst_ne_nil c later, (join_consFirst _ c some).trans (congrArg (c :: ·) joined)⟩

theorem segment_of_segments? {depth : Nat} {text : List Char} {first : List Char}
    {others : List (List Char)} (cut : segments? depth text = some (first :: others)) :
    Segment depth first ∧ ∀ other ∈ others, Segment 0 other := by
  induction text generalizing depth first others with
  | nil =>
    rw [segments?, Option.ite_none_right_eq_some] at cut
    cases cut.2
    exact ⟨(segment_nil_iff depth).mpr cut.1, nofun⟩
  | cons c rest ih =>
    rcases segments?_cons_eq_some cut with
      ⟨later, rfl, rfl, given, same⟩ | ⟨next, later, moved, closing, comma, given, same⟩
    · obtain ⟨rfl, rfl⟩ := List.cons.inj same
      refine ⟨(segment_nil_iff 0).mpr rfl, ?_⟩
      cases others with
      | nil => exact nofun
      | cons segment further => exact List.forall_mem_cons.mpr (ih given)
    · cases later with
      | nil => exact absurd rfl (join_segments? given).1
      | cons segment further =>
        obtain ⟨rfl, rfl⟩ := List.cons.inj same
        obtain ⟨first, later⟩ := ih given
        exact ⟨(segment_cons_iff moved).mpr ⟨closing, comma, first⟩, later⟩

theorem foldr_consFirst (segment : List Char) (others : List (List Char)) :
    segment.foldr consFirst ([] :: others) = segment :: others := by
  induction segment with
  | nil => rfl
  | cons c rest ih => rw [List.foldr_cons, ih, consFirst]

theorem segments?_append {depth : Nat} {segment : List Char} (whole : Segment depth segment)
    (rest : List Char) :
    segments? depth (segment ++ rest) =
      (segments? 0 rest).map fun segments => segment.foldr consFirst segments := by
  induction segment generalizing depth with
  | nil =>
    obtain rfl := (segment_nil_iff depth).mp whole
    exact (Option.map_id' ..).symm
  | cons c segment ih =>
    rcases reading depth c with ⟨closing, rfl⟩ | ⟨rfl, rfl⟩ | ⟨next, moved, closing, comma⟩
    · exact absurd whole (not_segment_of_unmatched closing segment)
    · exact absurd whole (not_segment_of_comma segment)
    · have later := ((segment_cons_iff moved).mp whole).2.2
      rw [List.cons_append, segments?_cons moved closing comma, ih later, Option.map_map]
      rfl

/-- Segments joined by commas are cut into the same segments. -/
theorem segments?_join {segments : List (List Char)} (some : segments ≠ [])
    (all : ∀ segment ∈ segments, Segment 0 segment) :
    segments? 0 (Text.join [','] segments) = .some segments := by
  induction segments with
  | nil => exact absurd rfl some
  | cons segment others ih =>
    obtain ⟨whole, further⟩ := List.forall_mem_cons.mp all
    cases others with
    | nil =>
      have cut := segments?_append whole []
      rw [List.append_nil] at cut
      exact cut.trans (congrArg Option.some (foldr_consFirst segment []))
    | cons other more =>
      change segments? 0 (segment ++ [','] ++ Text.join [','] (other :: more)) = _
      rw [List.append_assoc, segments?_append whole]
      change Option.map _ (segments? 0 (',' :: Text.join [','] (other :: more))) = _
      rw [segments?_comma, ih (List.cons_ne_nil _ _) further]
      exact congrArg Option.some (foldr_consFirst segment (other :: more))

structure CutInto (text : List Char) (segments : List (List Char)) : Prop where
  nonempty : segments ≠ []
  whole : ∀ segment ∈ segments, Segment 0 segment
  joined : Text.join [','] segments = text

theorem segments?_eq_some_iff {text : List Char} {segments : List (List Char)} :
    segments? 0 text = some segments ↔ CutInto text segments := by
  constructor
  · intro cut
    obtain ⟨nonempty, joined⟩ := join_segments? cut
    refine ⟨nonempty, ?_, joined⟩
    cases segments with
    | nil => exact nofun
    | cons first others => exact List.forall_mem_cons.mpr (segment_of_segments? cut)
  · rintro ⟨nonempty, whole, rfl⟩
    exact segments?_join nonempty whole

theorem CutInto.unique {text : List Char} {segments others : List (List Char)}
    (cut : CutInto text segments) (other : CutInto text others) : others = segments :=
  Option.some.inj
    ((segments?_eq_some_iff.mpr other).symm.trans (segments?_eq_some_iff.mpr cut))

theorem exists_cut {text : List Char} (balanced : Balanced 0 text) :
    ∃ segments, CutInto text segments := by
  rw [← isSome_segments?_iff] at balanced
  obtain ⟨segments, cut⟩ := Option.isSome_iff_exists.mp balanced
  exact ⟨segments, segments?_eq_some_iff.mp cut⟩

theorem CutInto.trimmed_eq_iff {text : List Char} {segments : List (List Char)}
    (cut : CutInto text segments) : segments.map Text.trim = [[]] ↔ Text.Blank text := by
  constructor
  · intro nothing
    obtain ⟨segment, rfl, empty⟩ := List.map_eq_singleton_iff.mp nothing
    rw [← cut.joined]
    exact (Text.trim_eq_nil_iff segment).mp empty
  · intro blank
    have pads : Text.Pads [] text := ⟨text, [], blank, nofun, by simp⟩
    have segment : Segment 0 text := (segment_of_pads pads 0).mpr ((segment_nil_iff 0).mpr rfl)
    have whole : CutInto text [text] :=
      ⟨List.cons_ne_nil _ _, List.forall_mem_singleton.mpr segment, rfl⟩
    rw [whole.unique cut, List.map_singleton, (Text.trim_eq_nil_iff text).mpr blank]

/-- An entry as it is cut out of a text: without blanks around it, with balanced brackets and with
    no comma outside of them. -/
structure Entry (text : List Char) : Prop where
  trimmed : Text.trim text = text
  segment : Segment 0 text

/-- A text that entries are written in: commas between them, and any blanks around each. Blanks
    alone have no entries. -/
def Written (entries : List (List Char)) (text : List Char) : Prop :=
  ∃ segments, List.Forall₂ Text.Pads (if entries = [] then [[]] else entries) segments ∧
    Text.join [','] segments = text

theorem entry_trim {segment : List Char} (whole : Segment 0 segment) :
    Entry (Text.trim segment) :=
  ⟨Text.trim_trim segment, (segment_of_pads (Text.pads_trim segment) 0).mp whole⟩

theorem split_of_unbalanced {text : String} (unbalanced : ¬Balanced 0 text.toList) :
    split text = .error (.unbalancedParameters text) := by
  rw [← isSome_segments?_iff, Option.not_isSome_iff_eq_none] at unbalanced
  unfold split
  rw [unbalanced]

theorem split_of_cut {text : String} {segments : List (List Char)}
    (cut : CutInto text.toList segments) :
    split text = .ok ((if Text.Blank text.toList then [] else segments.map Text.trim).map
      String.ofList) := by
  unfold split
  rw [segments?_eq_some_iff.mpr cut]
  dsimp only
  simp only [cut.trimmed_eq_iff]
  split <;> rfl

theorem entries_of_cut {text : String} {segments : List (List Char)} {entries : List String}
    (cut : CutInto text.toList segments) (ends : split text = .ok entries) :
    entries.map String.toList =
      if Text.Blank text.toList then [] else segments.map Text.trim := by
  rw [← Except.ok.inj ((split_of_cut cut).symm.trans ends)]
  exact Text.map_toList_ofList _

theorem exists_cut_of_split {text : String} {entries : List String}
    (ends : split text = .ok entries) : ∃ segments, CutInto text.toList segments := by
  apply exists_cut
  by_contra unbalanced
  cases (split_of_unbalanced unbalanced).symm.trans ends

theorem entry_of_split {text : String} {entries : List String} (ends : split text = .ok entries) :
    ∀ entry ∈ entries, Entry entry.toList := by
  intro entry inside
  obtain ⟨segments, cut⟩ := exists_cut_of_split ends
  have among := List.mem_map_of_mem (f := String.toList) inside
  rw [entries_of_cut cut ends, List.mem_ite_nil_left] at among
  obtain ⟨segment, member, same⟩ := List.mem_map.mp among.2
  rw [← same]
  exact entry_trim (cut.whole segment member)

theorem ne_singleton_of_split {text : String} {entries : List String}
    (ends : split text = .ok entries) : entries ≠ [""] := by
  rintro rfl
  obtain ⟨segments, cut⟩ := exists_cut_of_split ends
  have trimmed := entries_of_cut cut ends
  split at trimmed
  · cases trimmed
  · next some => exact some (cut.trimmed_eq_iff.mp trimmed.symm)

theorem written_of_cut {text : List Char} {segments : List (List Char)}
    (cut : CutInto text segments) :
    Written (if Text.Blank text then [] else segments.map Text.trim) text := by
  refine ⟨segments, ?_, cut.joined⟩
  have padded := Text.forall₂_pads_trim segments
  split
  · next blank =>
    rw [cut.trimmed_eq_iff.mpr blank] at padded
    exact padded
  · rwa [if_neg fun empty => cut.nonempty (List.map_eq_nil_iff.mp empty)]

theorem segments_of_marks {parts segments : List (List Char)}
    (marks : List.Forall₂ (fun part segment => part.filter isMark = segment.filter isMark) parts
      segments) (whole : ∀ part ∈ parts, Segment 0 part) :
    ∀ segment ∈ segments, Segment 0 segment := by
  induction marks with
  | nil => exact nofun
  | cons first _ ih =>
    obtain ⟨segment, others⟩ := List.forall_mem_cons.mp whole
    exact List.forall_mem_cons.mpr ⟨(segment_congr first 0).mp segment, ih others⟩

/-- Entries are read back from every text that they are written in. -/
theorem split_of_written {entries : List (List Char)} {text : String}
    (all : ∀ entry ∈ entries, Entry entry) (other : entries ≠ [[]])
    (written : Written entries text.toList) : split text = .ok (entries.map String.ofList) := by
  obtain ⟨segments, pads, joined⟩ := written
  have nothing : Entry [] := ⟨rfl, (segment_nil_iff 0).mpr rfl⟩
  have shown : ∀ entry ∈ if entries = [] then [[]] else entries, Entry entry := by
    split
    · exact List.forall_mem_singleton.mpr nothing
    · exact all
  have trimmed : segments.map Text.trim = if entries = [] then [[]] else entries := by
    rw [Text.map_trim_of_pads pads]
    exact (List.map_congr_left fun entry inside => (shown entry inside).trimmed).trans
      (List.map_id' _)
  have cut : CutInto text.toList segments := by
    have marks := pads.imp fun _ _ around => (marks_of_pads around).symm
    refine ⟨?_, segments_of_marks marks fun part inside => (shown part inside).segment, joined⟩
    rintro rfl
    split at trimmed <;> simp_all
  have blank : Text.Blank text.toList ↔ entries = [] := by
    rw [← cut.trimmed_eq_iff, trimmed]
    split
    · next none => exact iff_of_true rfl none
    · next some => exact iff_of_false other some
  rw [split_of_cut cut]
  simp only [blank, trimmed]
  split
  · next none => rw [none]
  · rfl

/-- A text of parameters is refused if and only if its brackets are not balanced. Otherwise its
    entries are its segments without the blanks around them, and they are the only entries that the
    text is written in. -/
theorem entries_between_commas :
    (∀ text : String, (∃ error, split text = .error error) ↔ ¬Balanced 0 text.toList) ∧
    (∀ (text : String) (error : Error), split text = .error error → error.kind = .parameter) ∧
    (∀ (text : String) (entries : List String), split text = .ok entries →
      (∀ entry ∈ entries, Entry entry.toList) ∧
      (∃ segments, (∀ cut, CutInto text.toList cut ↔ cut = segments) ∧
        entries.map String.toList =
          if Text.Blank text.toList then [] else segments.map Text.trim) ∧
      Written (entries.map String.toList) text.toList) ∧
    (∀ (entries : List String) (text : String), (∀ entry ∈ entries, Entry entry.toList) →
      entries ≠ [""] → Written (entries.map String.toList) text.toList →
      split text = .ok entries) := by
  refine ⟨fun text => ⟨?_, ?_⟩, ?_, ?_, ?_⟩
  · rintro ⟨error, ends⟩ balanced
    obtain ⟨segments, cut⟩ := exists_cut balanced
    cases (split_of_cut cut).symm.trans ends
  · exact fun unbalanced => ⟨_, split_of_unbalanced unbalanced⟩
  · intro text error ends
    exact List.mem_singleton.mp (split_raises text error ends)
  · intro text entries ends
    obtain ⟨segments, cut⟩ := exists_cut_of_split ends
    have trimmed := entries_of_cut cut ends
    refine ⟨entry_of_split ends, ⟨segments, fun other => ⟨cut.unique, ?_⟩, trimmed⟩, ?_⟩
    · rintro rfl
      exact cut
    · rw [trimmed]
      exact written_of_cut cut
  · intro entries text all other written
    have shown : ∀ entry ∈ entries.map String.toList, Entry entry := List.forall_mem_map.mpr all
    have some : entries.map String.toList ≠ [[]] := by
      intro single
      refine other ?_
      rw [← Text.map_ofList_toList entries, single]
      rfl
    rw [split_of_written shown some written, Text.map_ofList_toList]

example : split " a = [1, 2] ,, b = (c{,}) " = .ok ["a = [1, 2]", "", "b = (c{,})"] := rfl

end ElasticNet.Params
