import ElasticNet.Proofs.ByteOrder
import ElasticNet.Store
import Mathlib.Data.String.Basic
import Mathlib.Order.Compare

namespace ElasticNet

theorem utf8Bytes_lt_iff (text other : String) :
    utf8Bytes text < utf8Bytes other ↔ text < other := by
  constructor
  · intro before
    rcases lt_trichotomy text other with smaller | rfl | larger
    · exact smaller
    · exact absurd before (List.lt_irrefl _)
    · exact absurd (utf8Bytes_lt larger) (List.lt_asymm before)
  · exact utf8Bytes_lt

namespace StateKey

def GroupBefore : Option String → Option String → Prop
  | none, some _ => True
  | some name, some other => utf8Bytes name < utf8Bytes other
  | _, none => False

def Earlier (key other : StateKey) : Prop :=
  key.position < other.position ∨ key.position = other.position ∧ key.iteration < other.iteration

theorem compare_group_lt_iff (group other : Option String) :
    Ord.compare group other = .lt ↔ GroupBefore group other := by
  cases group with
  | none =>
    cases other with
    | none => exact iff_of_false (by decide) id
    | some name => exact iff_of_true rfl trivial
  | some name =>
    cases other with
    | none => exact iff_of_false (show ¬ Ordering.gt = .lt by decide) id
    | some later =>
      change Ord.compare name later = .lt ↔ utf8Bytes name < utf8Bytes later
      rw [utf8Bytes_lt_iff, compare_lt_iff_lt]

theorem compare_eq_lt_iff (key other : StateKey) :
    compare key other = .lt ↔
      GroupBefore key.group other.group ∨ key.group = other.group ∧ Earlier key other := by
  unfold compare Earlier
  simp only [compareLex, compareOn, Ordering.then_eq_lt, compare_group_lt_iff,
    Std.LawfulEqOrd.compare_eq_iff_eq, Nat.compare_eq_lt]

theorem precedes_iff_compare (key other : StateKey) :
    precedes key other = true ↔ compare key other = .lt :=
  decide_eq_true_iff

theorem precedes_iff (key other : StateKey) :
    precedes key other = true ↔
      GroupBefore key.group other.group ∨ key.group = other.group ∧ Earlier key other := by
  rw [precedes_iff_compare, compare_eq_lt_iff]

theorem precedes_irrefl (key : StateKey) : ¬ precedes key key = true := by
  have same : compare key key = .eq := Std.ReflCmp.compare_self
  rw [precedes_iff_compare, same]
  decide

theorem precedes_trans {first second third : StateKey} (before : precedes first second = true)
    (after : precedes second third = true) : precedes first third = true := by
  rw [precedes_iff_compare] at before after ⊢
  exact Std.TransCmp.lt_trans before after

/-- Keys of which neither comes before the other are the same key. -/
theorem not_precedes_iff (key other : StateKey) :
    ¬ precedes key other = true ∧ ¬ precedes other key = true ↔ key = other := by
  constructor
  · rintro ⟨notBefore, notAfter⟩
    rw [precedes_iff_compare] at notBefore notAfter
    rw [← Std.OrientedCmp.gt_iff_lt] at notAfter
    cases found : compare key other with
    | lt => exact absurd found notBefore
    | gt => exact absurd found notAfter
    | eq => exact Std.LawfulEqCmp.eq_of_compare found
  · rintro rfl
    exact ⟨precedes_irrefl key, precedes_irrefl key⟩

theorem isStrictTotalOrder_precedes :
    IsStrictTotalOrder StateKey fun key other => precedes key other = true where
  irrefl := precedes_irrefl
  trans _ _ _ := precedes_trans
  trichotomous key other notBefore notAfter :=
    (not_precedes_iff key other).mp ⟨notBefore, notAfter⟩

end StateKey

end ElasticNet
