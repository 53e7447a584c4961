import ElasticNet.Proofs.Params.Errors
import ElasticNet.Proofs.Params.Segments
import Mathlib.Data.List.Perm.Basic

namespace ElasticNet

namespace Params

/-- An entry written twice: with other blanks around it, its key and its value, and with other
    letters of its key in capitals. -/
inductive SameEntry : List Char → List Char → Prop
  | keyed {key other value next : List Char} (uncut : '=' ∉ key) (otherUncut : '=' ∉ other)
    (keys : Text.lower (Text.trim key) = Text.lower (Text.trim other))
    (values : Text.trim value = Text.trim next) :
    SameEntry (key ++ '=' :: value) (other ++ '=' :: next)
  | unkeyed {entry other : List Char} (uncut : '=' ∉ entry) (otherUncut : '=' ∉ other)
    (trimmed : Text.trim entry = Text.trim other) : SameEntry entry other

theorem exists_key_of_mem {entry : List Char} (signed : '=' ∈ entry) :
    ∃ key value, entry = key ++ '=' :: value ∧ '=' ∉ key :=
  List.eq_append_cons_of_mem signed

theorem SameEntry.refl (entry : List Char) : SameEntry entry entry := by
  by_cases signed : '=' ∈ entry
  · obtain ⟨key, value, rfl, uncut⟩ := exists_key_of_mem signed
    exact .keyed uncut uncut rfl rfl
  · exact .unkeyed signed signed rfl

theorem SameEntry.trim (entry : List Char) : SameEntry entry (Text.trim entry) := by
  by_cases signed : '=' ∈ entry
  · obtain ⟨key, value, rfl, uncut⟩ := exists_key_of_mem signed
    rw [Text.trim_around (by decide)]
    refine .keyed uncut (fun inside => uncut ?_) ?_ ?_
    · exact (List.dropWhile_sublist _).subset inside
    · rw [Text.trim_dropWhile]
    · rw [Text.trim_rdropWhile]
  · refine .unkeyed signed (fun inside => signed ?_) (Text.trim_trim entry).symm
    obtain ⟨before, after, _, _, whole⟩ := Text.pads_trim entry
    rw [whole]
    exact List.mem_append_left _ (List.mem_append_right _ inside)

theorem readEntry_keyed {key : List Char} (uncut : '=' ∉ key) (value : List Char) :
    readEntry (String.ofList (key ++ '=' :: value)) =
      if Text.lower (Text.trim key) = [] ∨ Text.trim value = [] then
        .error (.malformedParameter (String.ofList (key ++ '=' :: value)))
      else .ok (String.ofList (Text.lower (Text.trim key)), String.ofList (Text.trim value)) := by
  have before : ∀ c ∈ key, decide (c ≠ '=') = true := by
    intro c inside
    exact decide_eq_true fun same => uncut (same ▸ inside)
  have taken : (key ++ '=' :: value).takeWhile (· ≠ '=') = key := by
    rw [List.takeWhile_append_of_pos before]
    exact List.append_nil key
  have dropped : (key ++ '=' :: value).dropWhile (· ≠ '=') = '=' :: value := by
    rw [List.dropWhile_append_of_pos before]
    rfl
  unfold readEntry
  rw [String.toList_ofList]
  dsimp only
  rw [taken, dropped]
  simp

theorem readEntry_unkeyed {entry : List Char} (uncut : '=' ∉ entry) :
    readEntry (String.ofList entry) = .error (.malformedParameter (String.ofList entry)) := by
  unfold readEntry
  rw [String.toList_ofList]
  exact if_pos (.inl uncut)

def ReadsAlike (entry other : String) : Prop :=
  ∀ given, readEntry entry = .ok given ↔ readEntry other = .ok given

theorem SameEntry.readsAlike {entry other : List Char} (same : SameEntry entry other) :
    ReadsAlike (String.ofList entry) (String.ofList other) := by
  intro given
  cases same with
  | keyed uncut otherUncut keys values =>
    rw [readEntry_keyed uncut, readEntry_keyed otherUncut, keys, values]
    split
    · exact iff_of_false nofun nofun
    · exact Iff.rfl
  | unkeyed uncut otherUncut _ =>
    rw [readEntry_unkeyed uncut, readEntry_unkeyed otherUncut]
    exact iff_of_false nofun nofun

theorem SameEntry.marks {entry other : List Char} (same : SameEntry entry other) :
    entry.filter isMark = other.filter isMark := by
  cases same with
  | keyed _ _ keys values =>
    have marks := congrArg (List.filter isMark) keys
    rw [marks_lower, marks_lower, marks_trim, marks_trim] at marks
    have others := congrArg (List.filter isMark) values
    rw [marks_trim, marks_trim] at others
    have plain : ¬isMark '=' = true := by decide
    rw [List.filter_append, List.filter_append, List.filter_cons_of_neg plain,
      List.filter_cons_of_neg plain, marks, others]
  | unkeyed _ _ trimmed =>
    have marks := congrArg (List.filter isMark) trimmed
    rwa [marks_trim, marks_trim] at marks

theorem SameEntry.blank_iff {entry other : List Char} (same : SameEntry entry other) :
    Text.Blank entry ↔ Text.Blank other := by
  have shown {first last : List Char} : ¬Text.Blank (first ++ '=' :: last) := by
    intro blank
    exact absurd (blank '=' (List.mem_append_right _ List.mem_cons_self)) (by decide)
  cases same with
  | keyed => exact iff_of_false shown shown
  | unkeyed _ _ trimmed => rw [← Text.trim_eq_nil_iff, trimmed, Text.trim_eq_nil_iff]

variable {α : Type}

inductive Alike : Except Error (Params α) → Except Error (Params α) → Prop
  | read (params : Params α) : Alike (.ok params) (.ok params)
  | refused {first second : Error} (fault : first.kind = .parameter)
    (secondFault : second.kind = .parameter) : Alike (.error first) (.error second)

theorem alike_of_iff {first second : Except Error (Params α)}
    (raises : RaisesOnly [.parameter] first) (secondRaises : RaisesOnly [.parameter] second)
    (same : ∀ params, first = .ok params ↔ second = .ok params) : Alike first second := by
  cases first with
  | ok params =>
    rw [(same params).mp rfl]
    exact .read params
  | error error =>
    cases second with
    | ok params => cases (same params).mpr rfl
    | error other =>
      exact .refused (List.mem_singleton.mp (raises error rfl))
        (List.mem_singleton.mp (secondRaises other rfl))

variable [Scalar α]

theorem Sets.perm {method : Method} {entries others : List String} {params : Params α}
    (sets : Sets method entries params) (perm : entries.Perm others) :
    Sets method others params := by
  obtain ⟨assignments, assigns, different, left⟩ := sets
  obtain ⟨moved, assigned, back⟩ := List.perm_comp_forall₂ perm.symm assigns
  refine ⟨moved, assigned, (back.map _).nodup_iff.mpr different, ?_⟩
  rwa [foldl_apply_perm back ((back.map _).nodup_iff.mpr different)]

theorem Sets.readsAlike {method : Method} {entries others : List String} {params : Params α}
    (sets : Sets method entries params) (alike : List.Forall₂ ReadsAlike entries others) :
    Sets method others params := by
  obtain ⟨assignments, assigns, different, left⟩ := sets
  refine ⟨assignments, ?_, different, left⟩
  clear different left
  induction alike generalizing assignments with
  | nil => exact assigns
  | cons first _ ih =>
    cases assigns with
    | cons assigned further =>
      obtain ⟨value, read, own, given⟩ := assigned
      exact .cons ⟨value, (first _).mp read, own, given⟩ (ih _ further)

theorem sets_iff {method : Method} {entries middle others : List String}
    (perm : entries.Perm middle) (alike : List.Forall₂ ReadsAlike middle others)
    (params : Params α) : Sets method entries params ↔ Sets method others params := by
  have back : List.Forall₂ ReadsAlike others middle :=
    (alike.imp fun _ _ same given => (same given).symm).flip
  constructor
  · exact fun sets => (sets.perm perm).readsAlike alike
  · exact fun sets => (sets.readsAlike back).perm perm.symm

def Rewritten (entries : List String) (text : String) : Prop :=
  ∃ middle segments, entries.Perm middle ∧
    List.Forall₂ SameEntry (if middle = [] then [[]] else middle.map String.toList) segments ∧
    Text.join [','] segments = text.toList

def commaJoined (entries : List String) : String :=
  String.ofList (Text.join [','] (entries.map String.toList))

theorem rewritten_commaJoined {entries others : List String} (perm : entries.Perm others) :
    Rewritten entries (commaJoined others) := by
  refine ⟨others, _, perm, List.forall₂_same.mpr fun entry _ => SameEntry.refl entry, ?_⟩
  unfold commaJoined
  rw [String.toList_ofList]
  split
  · next none =>
    rw [none]
    rfl
  · rfl

theorem readsAlike_trim {entry : String} {segment : List Char}
    (same : SameEntry entry.toList segment) :
    ReadsAlike entry (String.ofList (Text.trim segment)) := by
  intro given
  have written := same.readsAlike given
  rw [String.ofList_toList] at written
  exact written.trans ((SameEntry.trim segment).readsAlike given)

theorem trimmed_ne_of_same {text : String} {entries middle : List String}
    {segments : List (List Char)} (cut : split text = .ok entries) (perm : entries.Perm middle)
    (same : List.Forall₂ SameEntry (middle.map String.toList) segments) :
    segments.map Text.trim ≠ [[]] := by
  intro single
  obtain ⟨segment, rfl, empty⟩ := List.map_eq_singleton_iff.mp single
  obtain ⟨part, rest, alike, none, shown⟩ := List.forall₂_cons_right_iff.mp same
  obtain rfl := List.forall₂_nil_right_iff.mp none
  obtain ⟨entry, rfl, rfl⟩ := List.map_eq_singleton_iff.mp shown
  obtain rfl := List.perm_singleton.mp perm
  have blank := alike.blank_iff.mpr ((Text.trim_eq_nil_iff segment).mp empty)
  have trimmed := (entry_of_split cut entry (List.mem_singleton_self entry)).trimmed
  rw [(Text.trim_eq_nil_iff _).mpr blank] at trimmed
  refine ne_singleton_of_split cut ?_
  rw [String.toList_eq_nil_iff.mp trimmed.symm]

theorem split_of_rewritten {text other : String} {entries : List String}
    (cut : split text = .ok entries) (rewritten : Rewritten entries other) :
    ∃ middle others, entries.Perm middle ∧ split other = .ok others ∧
      List.Forall₂ ReadsAlike middle others := by
  obtain ⟨middle, segments, perm, same, joined⟩ := rewritten
  refine ⟨middle, ?_⟩
  by_cases none : middle = []
  -- without entries there is still one segment, of blanks
  · subst none
    obtain ⟨segment, rest, alike, more, rfl⟩ := List.forall₂_cons_left_iff.mp same
    obtain rfl := List.forall₂_nil_left_iff.mp more
    have blank : Text.Blank segment := alike.blank_iff.mp nofun
    have pads : Text.Pads [] segment := ⟨segment, [], blank, nofun, by simp⟩
    have written : Written [] other.toList := ⟨[segment], .cons pads .nil, joined⟩
    have all : ∀ entry ∈ ([] : List (List Char)), Entry entry := nofun
    exact ⟨[], perm, split_of_written all nofun written, .nil⟩
  · rw [if_neg none] at same
    have whole : ∀ segment ∈ segments, Segment 0 segment := by
      have marks := same.imp fun _ _ written => written.marks
      refine segments_of_marks marks (List.forall_mem_map.mpr fun entry inside => ?_)
      exact (entry_of_split cut entry (perm.mem_iff.mpr inside)).segment
    have some : segments.map Text.trim ≠ [] := by
      intro empty
      rw [List.map_eq_nil_iff.mp empty, List.forall₂_nil_right_iff, List.map_eq_nil_iff] at same
      exact none same
    have written : Written (segments.map Text.trim) other.toList := by
      refine ⟨segments, ?_, joined⟩
      rw [if_neg some]
      exact Text.forall₂_pads_trim segments
    have all := List.forall_mem_map.mpr fun segment inside => entry_trim (whole segment inside)
    refine ⟨_, perm, split_of_written all (trimmed_ne_of_same cut perm same) written, ?_⟩
    rw [List.forall₂_map_right_iff, List.forall₂_map_right_iff]
    exact (List.forall₂_map_left_iff.mp same).imp fun _ _ => readsAlike_trim

theorem alike_of_rewritten {text other method : String} {entries : List String}
    (cut : split text = .ok entries) (rewritten : Rewritten entries other) :
    Alike (parse text method : Except Error (Params α)) (parse other method) := by
  refine alike_of_iff (parse_raises text method) (parse_raises other method) fun params => ?_
  obtain ⟨middle, others, perm, otherCut, alike⟩ := split_of_rewritten cut rewritten
  rw [parse_eq_ok_iff, parse_eq_ok_iff, cut, otherCut]
  constructor
  · rintro ⟨named, _, found, ⟨⟩, sets⟩
    exact ⟨named, others, found, rfl, (sets_iff perm alike params).mp sets⟩
  · rintro ⟨named, _, found, ⟨⟩, sets⟩
    exact ⟨named, entries, found, rfl, (sets_iff perm alike params).mpr sets⟩

/-- A text is read like every text that has its entries in another order, and like every text that
    has them with other blanks or other letters of their keys in capitals. -/
theorem parse_unordered {text : String} {entries : List String} (cut : split text = .ok entries)
    (method : String) :
    (∀ others, entries.Perm others →
      Alike (parse text method : Except Error (Params α)) (parse (commaJoined others) method)) ∧
    ∀ other, Rewritten entries other →
      Alike (parse text method : Except Error (Params α)) (parse other method) :=
  ⟨fun _ perm => alike_of_rewritten cut (rewritten_commaJoined perm),
    fun _ rewritten => alike_of_rewritten cut rewritten⟩

theorem parse_unordered_two :
    split " eta = 3 , Warmup=on" = .ok ["eta = 3", "Warmup=on"] ∧
    Alike (parse " eta = 3 , Warmup=on" "fista" : Except Error (Params Float))
      (parse "Warmup=on,eta = 3" "fista") := by
  have cut : split " eta = 3 , Warmup=on" = .ok ["eta = 3", "Warmup=on"] := rfl
  exact ⟨cut, (parse_unordered cut "fista").1 ["Warmup=on", "eta = 3"] (.swap _ _ [])⟩

end Params

end ElasticNet
