import ElasticNet.Proofs.Decimal.Spelling
import ElasticNet.Proofs.Params.Errors
import ElasticNet.Proofs.Path.Checked

namespace ElasticNet

def Error.quoting (text : String) : Error → Error
  | .unreadableStrength token _ => .unreadableStrength token text
  | error => error

namespace Path

variable {α : Type} [Scalar α]

def Reads (strength : α) (token : List Char) : Prop :=
  ∃ literal : Decimal.Literal, literal.Spells token ∧ Scalar.ofLiteral? literal = some strength

/-- Strengths as a list: pieces with commas between them, every one a literal with blanks around
    it. -/
def Listed (strengths : List α) (list : List Char) : Prop :=
  ∃ pieces, Text.SeparatedBy ',' pieces list ∧
    List.Forall₂ (fun strength piece => ∃ token, Text.Pads token piece ∧ Reads strength token)
      strengths pieces

/-- Strengths as text: the list of them, alone or between brackets, with blanks around it. -/
def Written (strengths : List α) (text : List Char) : Prop :=
  ∃ list, Listed strengths list ∧
    (Text.Pads list text ∨ Text.Pads ('[' :: (list ++ [']'])) text)

theorem Reads.trim_eq {strength : α} {token : List Char} (reads : Reads strength token) :
    Text.trim token = token := by
  obtain ⟨literal, spelled, -⟩ := reads
  exact spelled.trim_eq

theorem exists_pads_reads_iff {strength : α} {piece : List Char} :
    (∃ token, Text.Pads token piece ∧ Reads strength token) ↔ Reads strength (Text.trim piece) := by
  constructor
  · rintro ⟨token, pads, reads⟩
    rwa [pads.trim_eq, reads.trim_eq]
  · intro reads
    exact ⟨_, Text.pads_trim piece, reads⟩

theorem listed_iff {strengths : List α} {list : List Char} :
    Listed strengths list ↔
      List.Forall₂ (fun strength piece => Reads strength (Text.trim piece)) strengths
        (Text.pieces ',' list) := by
  unfold Listed
  simp only [Text.separatedBy_iff, exists_pads_reads_iff, exists_eq_left']

theorem Listed.length_eq {strengths : List α} {list : List Char} (listed : Listed strengths list) :
    strengths.length = list.count ',' + 1 := by
  rw [(listed_iff.mp listed).length_eq, Text.length_pieces]

theorem listed_of_pads {strengths : List α} {list text : List Char} (pads : Text.Pads list text) :
    Listed strengths text ↔ Listed strengths list := by
  have shown : ¬ Text.isBlank ',' = true := by decide
  rw [listed_iff, listed_iff, ← List.forall₂_map_right_iff (f := Text.trim),
    ← List.forall₂_map_right_iff (f := Text.trim), pads.map_trim_pieces shown]

theorem Reads.not_opening {strength : α} {piece : List Char} :
    ¬ Reads strength (Text.trim ('[' :: piece)) := by
  rintro ⟨literal, spelled, -⟩
  obtain ⟨c, more, opened, plain⟩ := spelled.exists_first
  have shown : ¬ Text.isBlank '[' = true := by decide
  have trimmed := Text.trim_around shown [] piece
  rw [List.nil_append, opened] at trimmed
  exact plain.2 (List.cons.inj trimmed).1

theorem Listed.head?_trim {strengths : List α} {list : List Char} (listed : Listed strengths list) :
    (Text.trim list).head? ≠ some '[' := by
  intro opening
  obtain ⟨rest, opened⟩ := List.head?_eq_some_iff.mp opening
  rw [listed_of_pads (Text.pads_trim list), opened, listed_iff] at listed
  have other : '[' ≠ ',' := by decide
  obtain ⟨piece, more, -, cut⟩ := Text.pieces_cons other rest
  rw [cut] at listed
  cases listed with
  | cons reads _ => exact reads.not_opening

theorem inside?_of_pads {list text : List Char} (pads : Text.Pads ('[' :: (list ++ [']'])) text) :
    inside? text = some list := by
  have trimmed : Text.trim text = '[' :: (list ++ [']']) := by
    rw [pads.trim_eq]
    apply Text.trim_eq_self
    · rintro c ⟨⟩
      decide
    · rw [← List.cons_append, List.getLast?_concat]
      rintro c ⟨⟩
      decide
  unfold inside?
  rw [trimmed]
  change (if (list ++ [']']).getLast? = some ']' then some (list ++ [']']).dropLast else none) = _
  rw [List.getLast?_concat, if_pos rfl, List.dropLast_concat]

theorem inside?_of_head {text : List Char} (other : (Text.trim text).head? ≠ some '[') :
    inside? text = some (Text.trim text) := by
  unfold inside?
  split
  · next opened =>
    rw [opened] at other
    exact absurd rfl other
  · rfl

theorem written_iff {strengths : List α} {text : List Char} :
    Written strengths text ↔ ∃ inside, inside? text = some inside ∧ Listed strengths inside := by
  constructor
  · rintro ⟨list, listed, pads | pads⟩
    · have other := listed.head?_trim
      rw [← pads.trim_eq] at other
      refine ⟨_, inside?_of_head other, ?_⟩
      rwa [pads.trim_eq, ← listed_of_pads (Text.pads_trim list)]
    · exact ⟨list, inside?_of_pads pads, listed⟩
  · rintro ⟨list, found, listed⟩
    have pads := Text.pads_trim text
    refine ⟨list, listed, ?_⟩
    unfold inside? at found
    split at found
    · next rest opened =>
      obtain ⟨closing, kept⟩ := Option.ite_none_right_eq_some.mp found
      rw [opened, ← List.dropLast_append_getLast? _ closing, Option.some.inj kept] at pads
      exact .inr pads
    · cases found
      exact .inl pads

theorem exists_readStrength?_iff {strength : α} {token : List Char} :
    (∃ written, readStrength? token = some (strength, written)) ↔ Reads strength token := by
  unfold readStrength? Reads
  simp only [← Decimal.Literal.read?_eq_some_iff]
  cases Decimal.Literal.read? token with
  | none => simp
  | some literal => cases found : (Scalar.ofLiteral? literal : Option α) <;> simp [found]

theorem exists_readPieces_iff (text : String) {strengths : List α} {pieces : List (List Char)} :
    (∃ shown, readPieces text pieces = .ok shown ∧ shown.map Prod.fst = strengths) ↔
      List.Forall₂ (fun strength piece => Reads strength (Text.trim piece)) strengths pieces := by
  induction pieces generalizing strengths with
  | nil =>
    rw [List.forall₂_nil_right_iff]
    constructor
    · rintro ⟨shown, ⟨⟩, rfl⟩
      rfl
    · rintro rfl
      exact ⟨[], rfl, rfl⟩
  | cons piece more ih =>
    constructor
    · rintro ⟨shown, read, rfl⟩
      unfold readPieces at read
      dsimp only at read
      split at read
      · cases read
      · next found =>
        obtain ⟨later, rest, ended⟩ := Command.of_bind_eq_ok read
        cases ended
        exact .cons (exists_readStrength?_iff.mp ⟨_, found⟩) (ih.mp ⟨later, rest, rfl⟩)
    · intro given
      cases given with
      | cons reads rest =>
        obtain ⟨written, found⟩ := exists_readStrength?_iff.mpr reads
        obtain ⟨later, read, rfl⟩ := ih.mpr rest
        refine ⟨(_, written) :: later, ?_, rfl⟩
        unfold readPieces
        simp only [found, read]
        rfl

theorem parse_eq_ok_iff {text : String} {path : Path α} :
    parse text = .ok path ↔ Written path.strengths text.toList ∧ Proper path.strengths := by
  rw [written_iff]
  unfold parse
  cases inside? text.toList with
  | none => simp
  | some inside =>
    simp only [Option.some.injEq, exists_eq_left', listed_iff]
    rw [← exists_readPieces_iff text]
    constructor
    · intro read
      obtain ⟨shown, found, made⟩ := Command.of_bind_eq_ok read
      obtain ⟨kept, proper⟩ := ofShown_eq_ok_iff.mp made
      rw [kept]
      exact ⟨⟨shown, found, rfl⟩, proper⟩
    · rintro ⟨⟨shown, found, kept⟩, proper⟩
      rw [found]
      rw [← kept] at proper
      exact ofShown_eq_ok_iff.mpr ⟨kept.symm, proper⟩

theorem checkFrom_quoting (text : String) (position : Nat) (previous? : Option (Shown α))
    (strengths : List (Shown α)) :
    (checkFrom position previous? strengths).mapError (Error.quoting text) =
      checkFrom position previous? strengths := by
  induction strengths generalizing position previous? with
  | nil => rfl
  | cons first rest ih =>
    unfold checkFrom
    split
    · rfl
    · split
      · split
        · rfl
        · exact ih _ _
      · exact ih _ _

theorem ofShown_quoting (text : String) (strengths : List (Shown α)) :
    (ofShown strengths).mapError (Error.quoting text) = ofShown strengths := by
  cases strengths with
  | nil => rfl
  | cons first rest =>
    have checked := checkFrom_quoting text 1 none (first :: rest)
    unfold ofShown
    dsimp only
    cases ended : checkFrom 1 none (first :: rest) with
    | ok answer => rfl
    | error error =>
      rw [ended] at checked
      exact congrArg Except.error (Except.error.inj checked)

/-- A list is read from its trimmed pieces; the text around it is only quoted. -/
theorem readPieces_quoting (text other : String) {pieces others : List (List Char)}
    (same : others.map Text.trim = pieces.map Text.trim) :
    (readPieces other others : Except Error (List (Shown α))) =
      (readPieces text pieces).mapError (Error.quoting other) := by
  induction pieces generalizing others with
  | nil =>
    obtain rfl := List.map_eq_nil_iff.mp same
    rfl
  | cons piece more ih =>
    obtain ⟨otherPiece, otherMore, rfl, first, rest⟩ := List.map_eq_cons_iff.mp same
    unfold readPieces
    dsimp only
    rw [first, ih rest]
    split
    · rfl
    · rw [Command.bind_mapError]
      rfl

theorem parse_bracketed (text : String) (other : (Text.trim text.toList).head? ≠ some '[') :
    (parse ("[" ++ text ++ "]") : Except Error (Path α)) =
      (parse text).mapError (Error.quoting ("[" ++ text ++ "]")) := by
  have around : ("[" ++ text ++ "]").toList = '[' :: (text.toList ++ [']']) := by
    simp
  have bracketed : inside? ("[" ++ text ++ "]").toList = some text.toList := by
    apply inside?_of_pads
    rw [around]
    exact ⟨[], [], nofun, nofun, by simp⟩
  have shown : ¬ Text.isBlank ',' = true := by decide
  have trimmed := (Text.pads_trim text.toList).map_trim_pieces shown
  unfold parse
  rw [bracketed, inside?_of_head other]
  dsimp only
  rw [readPieces_quoting text _ trimmed, Command.bind_mapError]
  simp only [ofShown_quoting]

theorem proper_iff_falling {strengths : List Float} (some : strengths ≠ []) :
    Proper strengths ↔ Falling strengths := by
  constructor
  · intro proper
    exact ⟨some, proper.nonneg, proper.pairwise⟩
  · intro falling
    have finite : ∀ strength ∈ strengths, strength.isFinite = true :=
      fun strength inside => (falling.valid strength inside).1
    refine ⟨fun strength inside => ⟨finite strength inside, ?_⟩, List.Pairwise.isChain ?_⟩
    · rw [Decimal.Binary64.not_lt_iff (finite strength inside) (by decide)]
      exact (falling.valid strength inside).2
    · refine falling.falling.imp_of_mem fun first second below => ?_
      rwa [Decimal.Binary64.not_lt_iff (finite _ first) (finite _ second)]

theorem Written.length_eq {strengths : List α} {text : List Char}
    (written : Written strengths text) :
    strengths.length = text.count ',' + 1 := by
  have shown : ¬ Text.isBlank ',' = true := by decide
  obtain ⟨list, listed, pads | pads⟩ := written
  · rw [pads.count_eq shown, listed.length_eq]
  · have brackets : ('[' :: (list ++ [']'])).count ',' = list.count ',' := by
      rw [List.count_cons_of_ne (by decide), List.count_append]
      rfl
    rw [pads.count_eq shown, brackets, listed.length_eq]

/-- A text is read as a path of doubles if and only if it is written as one and its strengths are
    finite, not negative and in falling order. There is one strength more than there are commas,
    and checking the strengths again makes the same path of them. Every other text is refused as an
    error of the parameters. Brackets around a text that has none are not seen, except where an
    error quotes the text. -/
theorem parse_written (text : String) :
    (∀ path : Path Float,
      parse text = .ok path ↔ Written path.strengths text.toList ∧ Falling path.strengths) ∧
    (∀ path : Path Float, parse text = .ok path →
      path.size = text.toList.count ',' + 1 ∧ ofList path.strengths = .ok path) ∧
    ((∃ path : Path Float, parse text = .ok path) ∨
      ∃ error, (parse text : Except Error (Path Float)) = .error error ∧
        error.kind = .parameter) ∧
    ((Text.trim text.toList).head? ≠ some '[' →
      (parse ("[" ++ text ++ "]") : Except Error (Path Float)) =
        (parse text).mapError (Error.quoting ("[" ++ text ++ "]"))) := by
  refine ⟨fun path => ?_, fun path read => ?_, ?_, parse_bracketed text⟩
  · rw [parse_eq_ok_iff, proper_iff_falling path.nonempty]
  · obtain ⟨written, proper⟩ := parse_eq_ok_iff.mp read
    exact ⟨written.length_eq, ofList_eq_ok_iff.mpr ⟨rfl, proper⟩⟩
  · have raises := parse_raises (α := Float) text
    cases ended : (parse text : Except Error (Path Float)) with
    | ok path => exact .inl ⟨path, rfl⟩
    | error error => exact .inr ⟨error, rfl, List.mem_singleton.mp (raises error ended)⟩

example : (parse "[" : Except Error (Path Float)) = .error (.unbalancedPath "[") := rfl

example : (parse "[[1]]" : Except Error (Path Float)) =
    .error (.unreadableStrength "[1]" "[[1]]") := rfl

end Path

end ElasticNet
