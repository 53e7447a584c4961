import ElasticNet.Decimal.Literal
import ElasticNet.Proofs.Text.Pieces
import Mathlib.Data.Nat.Digits.Defs

namespace ElasticNet.Decimal

inductive SignText : Bool → List Char → Prop
  | absent : SignText false []
  | plus : SignText false ['+']
  | minus : SignText true ['-']

def Digits (text : List Char) : Prop :=
  ∀ c ∈ text, c.isDigit = true

def number (digits : List Char) : ℕ :=
  Nat.ofDigits 10 (digits.map fun c => c.toNat - '0'.toNat).reverse

def signed (negative : Bool) (n : ℕ) : ℤ :=
  if negative then -n else n

inductive ExponentText : ℤ → List Char → Prop
  | absent : ExponentText 0 []
  | given {mark : Char} {negative : Bool} {sign digits : List Char} :
      mark = 'e' ∨ mark = 'E' → SignText negative sign → Digits digits → digits ≠ [] →
      ExponentText (signed negative (number digits)) (mark :: (sign ++ digits))

inductive PointText : List Char → List Char → Prop
  | absent : PointText [] []
  | given {part : List Char} : Digits part → PointText part ('.' :: part)

inductive RemarkText : List Char → Prop
  | absent : RemarkText []
  | given (inside : List Char) : RemarkText ('(' :: (inside ++ [')']))

/-- The texts of a literal. A decimal has a digit before or behind its point; the words are written
    in capitals or small letters. -/
inductive Literal.Spells : Literal → List Char → Prop
  | decimal {negative : Bool} {sign whole part point exponentText : List Char} {exponent : ℤ} :
      SignText negative sign → Digits whole → PointText part point → whole ++ part ≠ [] →
      ExponentText exponent exponentText →
      Spells (.decimal negative (number (whole ++ part)) (exponent - part.length))
        (sign ++ (whole ++ (point ++ exponentText)))
  | infinity {negative : Bool} {sign word : List Char} :
      SignText negative sign →
      word.map Char.toLower = "inf".toList ∨ word.map Char.toLower = "infinity".toList →
      Spells (.infinity negative) (sign ++ word)
  | notANumber {negative : Bool} {sign word remark : List Char} :
      SignText negative sign → word.map Char.toLower = "nan".toList → RemarkText remark →
      Spells (.notANumber negative) (sign ++ (word ++ remark))

-- with numerals, which the arithmetic needs
theorem toNat_of_isDigit {c : Char} (digit : c.isDigit = true) : 48 ≤ c.toNat ∧ c.toNat ≤ 57 :=
  Char.isDigit_iff_toNat.mp digit

theorem exists_sign (text : List Char) :
    ∃ sign, SignText (readSign text).1 sign ∧ text = sign ++ (readSign text).2 := by
  unfold readSign
  split
  · exact ⟨_, .minus, rfl⟩
  · exact ⟨_, .plus, rfl⟩
  · exact ⟨_, .absent, rfl⟩

def Unsigned (text : List Char) : Prop :=
  ∀ c ∈ text.head?, c ≠ '+' ∧ c ≠ '-'

theorem readSign_append {negative : Bool} {sign text : List Char} (written : SignText negative sign)
    (unsigned : Unsigned text) : readSign (sign ++ text) = (negative, text) := by
  cases written with
  | plus => rfl
  | minus => rfl
  | absent =>
    cases text with
    | nil => rfl
    | cons c rest =>
      obtain ⟨notPlus, notMinus⟩ := unsigned c rfl
      unfold readSign
      split
      · next same => exact absurd (List.cons.inj same).1 notMinus
      · next same => exact absurd (List.cons.inj same).1 notPlus
      · rfl

theorem Digits.unsigned {digits : List Char} (all : Digits digits) : Unsigned digits := by
  intro c first
  have digit := all c (List.mem_of_mem_head? first)
  constructor
  · rintro rfl
    exact absurd digit (by decide)
  · rintro rfl
    exact absurd digit (by decide)

theorem number_concat (digits : List Char) (c : Char) :
    number (digits ++ [c]) = 10 * number digits + (c.toNat - '0'.toNat) := by
  unfold number
  rw [List.map_append, List.reverse_append, List.map_singleton, List.reverse_singleton,
    List.singleton_append, Nat.ofDigits_cons, Nat.add_comm]

theorem digitsValue_eq (digits : List Char) : digitsValue digits = number digits := by
  induction digits using List.reverseRecOn with
  | nil => rfl
  | append_singleton digits c ih =>
    rw [number_concat, ← ih]
    exact List.foldl_concat ..

theorem readNatural?_eq_some_iff {text : List Char} {n : ℕ} :
    readNatural? text = some n ↔ text ≠ [] ∧ Digits text ∧ number text = n := by
  unfold readNatural?
  rw [Option.ite_none_right_eq_some, digitsValue_eq, Option.some.injEq, List.all_eq_true, and_assoc]
  rfl

theorem readInteger?_eq_some_iff {text : List Char} {n : ℤ} :
    readInteger? text = some n ↔ ∃ negative sign digits, SignText negative sign ∧ Digits digits ∧
      digits ≠ [] ∧ text = sign ++ digits ∧ signed negative (number digits) = n := by
  have opened : readInteger? text =
      (readNatural? (readSign text).2).map (signed (readSign text).1) := by
    unfold readInteger?
    dsimp only
    cases readNatural? (readSign text).2 with
    | none => rfl
    | some size => rfl
  rw [opened, Option.map_eq_some_iff]
  constructor
  · rintro ⟨size, read, rfl⟩
    obtain ⟨sign, written, whole⟩ := exists_sign text
    obtain ⟨some, all, rfl⟩ := readNatural?_eq_some_iff.mp read
    exact ⟨_, sign, _, written, all, some, whole, rfl⟩
  · rintro ⟨negative, sign, digits, written, all, some, rfl, rfl⟩
    rw [readSign_append written all.unsigned]
    exact ⟨_, readNatural?_eq_some_iff.mpr ⟨some, all, rfl⟩, rfl⟩

theorem readExponent?_eq_some_iff {text : List Char} {exponent : ℤ} :
    readExponent? text = some exponent ↔ ExponentText exponent text := by
  cases text with
  | nil =>
    constructor
    · rintro ⟨⟩
      exact .absent
    · rintro ⟨⟩
      rfl
  | cons mark rest =>
    rw [readExponent?, Option.ite_none_right_eq_some, readInteger?_eq_some_iff]
    constructor
    · rintro ⟨letter, negative, sign, digits, written, all, some, rfl, rfl⟩
      exact .given letter written all some
    · intro spelled
      cases spelled with
      | given letter written all some => exact ⟨letter, _, _, _, written, all, some, rfl, rfl⟩

def Stops (text : List Char) : Prop :=
  ∀ c ∈ text.head?, ¬ c.isDigit = true

theorem takeWhile_digits {digits rest : List Char} (all : Digits digits) (stops : Stops rest) :
    (digits ++ rest).takeWhile Char.isDigit = digits ∧
      (digits ++ rest).dropWhile Char.isDigit = rest := by
  have ended : rest.takeWhile Char.isDigit = [] ∧ rest.dropWhile Char.isDigit = rest := by
    cases rest with
    | nil => exact ⟨rfl, rfl⟩
    | cons c more =>
      have other := stops c rfl
      exact ⟨List.takeWhile_cons_of_neg other, List.dropWhile_cons_of_neg other⟩
  rw [List.takeWhile_append_of_pos all, List.dropWhile_append_of_pos all, ended.1, ended.2,
    List.append_nil]
  exact ⟨rfl, rfl⟩

theorem ExponentText.stops {exponent : ℤ} {text : List Char}
    (written : ExponentText exponent text) :
    Stops text := by
  cases written with
  | absent => exact nofun
  | given letter =>
    rintro c ⟨⟩
    rcases letter with rfl | rfl
    · decide
    · decide

theorem PointText.stops {exponent : ℤ} {part point text : List Char}
    (pointed : PointText part point) (written : ExponentText exponent text) :
    Stops (point ++ text) := by
  cases pointed with
  | absent => exact written.stops
  | given =>
    rintro c ⟨⟩
    decide

theorem PointText.digits {part point : List Char} (pointed : PointText part point) :
    Digits part := by
  cases pointed with
  | absent => exact nofun
  | given all => exact all

theorem digits_takeWhile (text : List Char) : Digits (text.takeWhile Char.isDigit) :=
  fun _ inside => List.mem_takeWhile_imp inside

def readPoint : List Char → List Char × List Char
  | '.' :: more => (more.takeWhile Char.isDigit, more.dropWhile Char.isDigit)
  | text => ([], text)

theorem exists_point (text : List Char) :
    ∃ point, PointText (readPoint text).1 point ∧ text = point ++ (readPoint text).2 := by
  unfold readPoint
  split
  · next more =>
    refine ⟨_, .given (digits_takeWhile more), ?_⟩
    rw [List.cons_append, List.takeWhile_append_dropWhile]
  · exact ⟨_, .absent, rfl⟩

theorem readPoint_append {exponent : ℤ} {part point text : List Char}
    (pointed : PointText part point) (written : ExponentText exponent text) :
    readPoint (point ++ text) = (part, text) := by
  cases pointed with
  | absent =>
    cases written with
    | absent => rfl
    | given letter =>
      rcases letter with rfl | rfl
      · rfl
      · rfl
  | given all =>
    obtain ⟨taken, dropped⟩ := takeWhile_digits all written.stops
    rw [List.cons_append, readPoint, taken, dropped]

theorem readFraction?_eq (text : List Char) :
    readFraction? text =
      if text.takeWhile Char.isDigit = [] ∧ (readPoint (text.dropWhile Char.isDigit)).1 = [] then
        none
      else
        (readExponent? (readPoint (text.dropWhile Char.isDigit)).2).map fun exponent : ℤ =>
          (digitsValue (text.takeWhile Char.isDigit ++ (readPoint (text.dropWhile Char.isDigit)).1),
            exponent - ((readPoint (text.dropWhile Char.isDigit)).1.length : ℤ)) := by
  unfold readFraction?
  dsimp only
  generalize text.dropWhile Char.isDigit = behind
  split
  · rfl
  · next other =>
    rw [readPoint]
    exact other

theorem readFraction?_eq_some_iff {text : List Char} {digits : ℕ} {places : ℤ} :
    readFraction? text = some (digits, places) ↔
      ∃ whole part point exponentText exponent, Digits whole ∧ PointText part point ∧
        whole ++ part ≠ [] ∧ ExponentText exponent exponentText ∧
        text = whole ++ (point ++ exponentText) ∧ number (whole ++ part) = digits ∧
        exponent - part.length = places := by
  rw [readFraction?_eq, Option.ite_none_left_eq_some, Option.map_eq_some_iff, digitsValue_eq,
    ← List.append_eq_nil_iff]
  constructor
  · rintro ⟨some, exponent, read, given⟩
    obtain ⟨point, pointed, rest⟩ := exists_point (text.dropWhile Char.isDigit)
    obtain ⟨rfl, rfl⟩ := Prod.mk.inj given
    refine ⟨_, _, point, _, exponent, digits_takeWhile text, pointed, some,
      readExponent?_eq_some_iff.mp read, ?_, rfl, rfl⟩
    rw [← rest, List.takeWhile_append_dropWhile]
  · rintro ⟨whole, part, point, exponentText, exponent, all, pointed, some, written, rfl, rfl, rfl⟩
    obtain ⟨taken, dropped⟩ := takeWhile_digits all (pointed.stops written)
    rw [taken, dropped, readPoint_append pointed written]
    exact ⟨some, exponent, readExponent?_eq_some_iff.mpr written, rfl⟩

theorem isRemark_lower_iff {text : List Char} :
    isRemark (text.map Char.toLower) = true ↔ RemarkText text := by
  constructor
  · intro remark
    unfold isRemark at remark
    simp only [Bool.or_eq_true, Bool.and_eq_true, decide_eq_true_eq, List.map_eq_nil_iff,
      List.head?_map, List.getLast?_map, List.length_map, Option.map_eq_some_iff] at remark
    rcases remark with rfl | ⟨⟨long, first, begins, opening⟩, last, ends, closing⟩
    · exact .absent
    · obtain rfl := Text.eq_of_toLower_eq opening (by decide)
      obtain rfl := Text.eq_of_toLower_eq closing (by decide)
      obtain ⟨rest, rfl⟩ := List.head?_eq_some_iff.mp begins
      obtain rfl | ⟨inside, other, rfl⟩ := rest.eq_nil_or_concat'
      · exact absurd long (by decide)
      · rw [← List.cons_append, List.getLast?_concat] at ends
        obtain rfl := Option.some.inj ends
        exact .given inside
  · intro written
    cases written with
    | absent => rfl
    | given inside =>
      have lower : ('(' :: (inside ++ [')'])).map Char.toLower =
          ('(' :: inside.map Char.toLower) ++ [')'] := by
        rw [List.map_cons, List.map_append]
        rfl
      rw [lower, isRemark, List.getLast?_concat, List.length_append]
      simp

theorem Unsigned.of_lower {text : List Char} (unsigned : Unsigned (text.map Char.toLower)) :
    Unsigned text := by
  intro c first
  have lowered : c.toLower ∈ (text.map Char.toLower).head? := by
    rw [List.head?_map, first]
    rfl
  obtain ⟨notPlus, notMinus⟩ := unsigned _ lowered
  constructor
  · rintro rfl
    exact notPlus rfl
  · rintro rfl
    exact notMinus rfl

theorem exists_first {whole part point : List Char} (all : Digits whole)
    (pointed : PointText part point) (some : whole ++ part ≠ []) (rest : List Char) :
    ∃ c more, whole ++ (point ++ rest) = c :: more ∧ (c.isDigit = true ∨ c = '.') := by
  cases whole with
  | cons c more => exact ⟨c, _, rfl, .inl (all c List.mem_cons_self)⟩
  | nil =>
    cases pointed with
    | absent => exact absurd rfl some
    | given => exact ⟨'.', _, rfl, .inr rfl⟩

section Read

variable {negative : Bool} {sign : List Char} (written : SignText negative sign)
include written

theorem read?_infinity {word : List Char}
    (spelled : word.map Char.toLower = "inf".toList ∨ word.map Char.toLower = "infinity".toList) :
    Literal.read? (sign ++ word) = some (.infinity negative) := by
  have unsigned : Unsigned (word.map Char.toLower) := by
    rcases spelled with same | same
    · rw [same]
      rintro c ⟨⟩
      decide
    · rw [same]
      rintro c ⟨⟩
      decide
  unfold Literal.read?
  rw [readSign_append written unsigned.of_lower]
  exact if_pos spelled

theorem read?_notANumber {word remark : List Char} (spelled : word.map Char.toLower = "nan".toList)
    (remarked : RemarkText remark) :
    Literal.read? (sign ++ (word ++ remark)) = some (.notANumber negative) := by
  have lower : (word ++ remark).map Char.toLower = "nan".toList ++ remark.map Char.toLower := by
    rw [List.map_append, spelled]
  have unsigned : Unsigned ((word ++ remark).map Char.toLower) := by
    rw [lower]
    rintro c ⟨⟩
    decide
  unfold Literal.read?
  rw [readSign_append written unsigned.of_lower]
  dsimp only
  rw [lower, if_neg, if_pos]
  · exact ⟨rfl, isRemark_lower_iff.mpr remarked⟩
  · rintro (other | other)
    · exact absurd (List.cons.inj other).1 (by decide)
    · exact absurd (List.cons.inj other).1 (by decide)

theorem read?_decimal {whole part point exponentText : List Char} {exponent : ℤ}
    (all : Digits whole) (pointed : PointText part point) (counted : whole ++ part ≠ [])
    (last : ExponentText exponent exponentText) :
    Literal.read? (sign ++ (whole ++ (point ++ exponentText))) =
      some (.decimal negative (number (whole ++ part)) (exponent - part.length)) := by
  obtain ⟨c, more, opened, begins⟩ := exists_first all pointed counted exponentText
  have range : 46 ≤ c.toNat ∧ c.toNat ≤ 57 := by
    rcases begins with digit | rfl
    · have range := toNat_of_isDigit digit
      omega
    · decide
  have lower : (c :: more).map Char.toLower = c :: more.map Char.toLower := by
    rw [List.map_cons, Text.toLower_of_not_capital (.inl (by omega))]
  have unsigned : Unsigned (c :: more) := by
    rintro _ ⟨⟩
    constructor
    · rintro rfl
      exact absurd range.1 (by decide)
    · rintro rfl
      exact absurd range.1 (by decide)
  have fraction : readFraction? (c :: more) = _ := opened ▸ readFraction?_eq_some_iff.mpr
    ⟨whole, part, point, exponentText, exponent, all, pointed, counted, last, rfl, rfl, rfl⟩
  have noLetter : c ≠ 'i' ∧ c ≠ 'n' := by
    constructor
    · rintro rfl
      exact absurd range.2 (by decide)
    · rintro rfl
      exact absurd range.2 (by decide)
  unfold Literal.read?
  rw [opened, readSign_append written unsigned]
  dsimp only
  rw [lower, if_neg, if_neg, fraction]
  · rfl
  · rintro ⟨word, -⟩
    exact noLetter.2 (List.cons.inj word).1
  · rintro (word | word)
    · exact noLetter.1 (List.cons.inj word).1
    · exact noLetter.1 (List.cons.inj word).1

end Read

theorem Literal.read?_eq_some_iff {text : List Char} {literal : Literal} :
    Literal.read? text = some literal ↔ literal.Spells text := by
  constructor
  · intro read
    obtain ⟨sign, written, whole⟩ := exists_sign text
    rw [whole]
    unfold Literal.read? at read
    dsimp only at read
    split at read
    · next word =>
      cases read
      exact .infinity written word
    · split at read
      · next word =>
        cases read
        rw [← List.map_take, ← List.map_drop, isRemark_lower_iff] at word
        rw [← List.take_append_drop 3 (readSign text).2]
        exact .notANumber written word.1 word.2
      · obtain ⟨⟨digits, places⟩, fraction, rfl⟩ := Option.map_eq_some_iff.mp read
        obtain ⟨whole, part, point, exponentText, exponent, all, pointed, some, last, spelled, rfl,
          rfl⟩ := readFraction?_eq_some_iff.mp fraction
        rw [spelled]
        exact .decimal written all pointed some last
  · intro spelled
    cases spelled with
    | decimal written all pointed some last => exact read?_decimal written all pointed some last
    | infinity written word => exact read?_infinity written word
    | notANumber written word remarked => exact read?_notANumber written word remarked

def Plain (c : Char) : Prop :=
  ¬ Text.isBlank c = true ∧ c ≠ '['

instance : DecidablePred Plain := fun _ => inferInstanceAs (Decidable (_ ∧ _))

theorem plain_of_toLower {c : Char} (plain : Plain c.toLower) : Plain c := by
  constructor
  · intro blank
    have low := Text.toNat_of_isBlank blank
    rw [Text.toLower_of_not_capital (.inl (by omega))] at plain
    exact plain.1 blank
  · rintro rfl
    exact plain.2 rfl

theorem forall_plain_of_lower {text lower : List Char} (same : text.map Char.toLower = lower)
    (plain : lower.all (fun c => decide (Plain c)) = true) : ∀ c ∈ text, Plain c := by
  intro c inside
  apply plain_of_toLower
  have lowered : c.toLower ∈ lower := by
    rw [← same]
    exact List.mem_map_of_mem inside
  exact of_decide_eq_true (List.all_eq_true.mp plain _ lowered)

theorem SignText.forall_plain {negative : Bool} {sign : List Char}
    (written : SignText negative sign) :
    ∀ c ∈ sign, Plain c := by
  cases written with
  | absent => exact nofun
  | plus => exact List.forall_mem_singleton.mpr (by decide)
  | minus => exact List.forall_mem_singleton.mpr (by decide)

theorem Digits.forall_plain {digits : List Char} (all : Digits digits) : ∀ c ∈ digits, Plain c := by
  intro c inside
  have range := toNat_of_isDigit (all c inside)
  constructor
  · intro blank
    have low := Text.toNat_of_isBlank blank
    omega
  · rintro rfl
    exact absurd range.2 (by decide)

theorem PointText.forall_plain {part point : List Char} (pointed : PointText part point) :
    ∀ c ∈ point, Plain c := by
  cases pointed with
  | absent => exact nofun
  | given all => exact List.forall_mem_cons.mpr ⟨by decide, all.forall_plain⟩

theorem ExponentText.forall_plain {exponent : ℤ} {text : List Char}
    (written : ExponentText exponent text) : ∀ c ∈ text, Plain c := by
  cases written with
  | absent => exact nofun
  | @given mark _ _ _ letter written all =>
    have plain : Plain mark := by
      rcases letter with rfl | rfl
      · decide
      · decide
    exact List.forall_mem_cons.mpr
      ⟨plain, List.forall_mem_append.mpr ⟨written.forall_plain, all.forall_plain⟩⟩

theorem Literal.Spells.exists_plain {literal : Literal} {text : List Char}
    (spelled : literal.Spells text) :
    ∃ front remark, text = front ++ remark ∧ front ≠ [] ∧ (∀ c ∈ front, Plain c) ∧
      RemarkText remark := by
  cases spelled with
  | decimal written all pointed some last =>
    refine ⟨_, [], (List.append_nil _).symm, ?_, ?_, .absent⟩
    · obtain ⟨c, more, opened, -⟩ := exists_first all pointed some _
      rw [opened]
      exact List.append_ne_nil_of_right_ne_nil _ (List.cons_ne_nil c more)
    · simp only [List.forall_mem_append]
      exact ⟨written.forall_plain, all.forall_plain, pointed.forall_plain, last.forall_plain⟩
  | infinity written word =>
    refine ⟨_, [], (List.append_nil _).symm, ?_, List.forall_mem_append.mpr
      ⟨written.forall_plain, ?_⟩, .absent⟩
    · apply List.append_ne_nil_of_right_ne_nil
      rintro rfl
      exact absurd word (by decide)
    · rcases word with same | same
      · exact forall_plain_of_lower same (by decide)
      · exact forall_plain_of_lower same (by decide)
  | notANumber written word remarked =>
    refine ⟨_, _, (List.append_assoc ..).symm, ?_, List.forall_mem_append.mpr
      ⟨written.forall_plain, forall_plain_of_lower word (by decide)⟩, remarked⟩
    apply List.append_ne_nil_of_right_ne_nil
    rintro rfl
    exact absurd word (by decide)

/-- A literal begins with a character that is no blank and no bracket. -/
theorem Literal.Spells.exists_first {literal : Literal} {text : List Char}
    (spelled : literal.Spells text) : ∃ c more, text = c :: more ∧ Plain c := by
  obtain ⟨front, remark, rfl, some, plain, -⟩ := spelled.exists_plain
  obtain ⟨c, more, rfl⟩ := List.exists_cons_of_ne_nil some
  exact ⟨c, _, rfl, plain c List.mem_cons_self⟩

theorem Literal.Spells.trim_eq {literal : Literal} {text : List Char}
    (spelled : literal.Spells text) : Text.trim text = text := by
  apply Text.trim_eq_self
  · obtain ⟨c, more, rfl, plain⟩ := spelled.exists_first
    rintro _ ⟨⟩
    exact plain.1
  · obtain ⟨front, remark, rfl, some, plain, remarked⟩ := spelled.exists_plain
    cases remarked with
    | absent =>
      rw [List.append_nil]
      exact fun c last => (plain c (List.mem_of_getLast? last)).1
    | given inside =>
      rw [← List.cons_append, ← List.append_assoc, List.getLast?_concat]
      rintro _ ⟨⟩
      decide

end ElasticNet.Decimal
