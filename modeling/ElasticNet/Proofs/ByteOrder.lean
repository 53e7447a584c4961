import Mathlib.Data.List.Basic

namespace ElasticNet

theorem utf8EncodeChar_lt {c d : Char} (before : c < d) (rest otherRest : List UInt8) :
    String.utf8EncodeChar c ++ rest < String.utf8EncodeChar d ++ otherRest := by
  have smaller : c.val.toNat < d.val.toNat := before
  have valid : d.val.toNat < 1114112 := by
    have range := d.valid
    unfold UInt32.isValidChar Nat.isValidChar at range
    omega
  unfold String.utf8EncodeChar
  generalize c.val.toNat = m at smaller
  generalize d.val.toNat = n at smaller valid
  dsimp only
  have twice (v : Nat) : v / 4096 = v / 64 / 64 := by omega
  have thrice (v : Nat) : v / 262144 = v / 64 / 64 / 64 := by omega
  -- by the number of bytes of each; the digits decide where these are equal, the first byte
  -- elsewhere
  repeat' split
  all_goals
    simp only [List.cons_append, List.nil_append, List.cons_lt_cons_iff, UInt8.lt_iff_toNat_lt,
      ← UInt8.toNat_inj, UInt8.toNat_ofNat', twice, thrice]
    omega

def utf8Bytes (text : String) : List UInt8 :=
  text.toByteArray.data.toList

theorem utf8Bytes_eq (text : String) :
    utf8Bytes text = text.toList.flatMap String.utf8EncodeChar := by
  unfold utf8Bytes
  rw [← String.utf8Encode_toList]
  exact List.toList_data_toByteArray

theorem flatMap_utf8EncodeChar_lt {chars other : List Char} (before : chars < other) :
    chars.flatMap String.utf8EncodeChar < other.flatMap String.utf8EncodeChar := by
  induction chars generalizing other with
  | nil =>
    cases other with
    | nil => exact absurd before (List.lt_irrefl _)
    | cons d rest =>
      have encoded : String.utf8EncodeChar d ≠ [] := by
        apply List.ne_nil_of_length_pos
        rw [String.length_utf8EncodeChar]
        exact d.utf8Size_pos
      obtain ⟨first, others, given⟩ := List.exists_cons_of_ne_nil encoded
      rw [List.flatMap_nil, List.flatMap_cons, given]
      exact List.nil_lt_cons first _
  | cons c chars ih =>
    cases other with
    | nil => exact absurd before (List.not_lt_nil _)
    | cons d rest =>
      rw [List.flatMap_cons, List.flatMap_cons]
      rcases List.cons_lt_cons_iff.mp before with smaller | ⟨rfl, later⟩
      · exact utf8EncodeChar_lt smaller _ _
      · exact List.append_left_lt (ih later)

/-- Strings in increasing order have their bytes in increasing order. -/
theorem utf8Bytes_lt {text other : String} (before : text < other) :
    utf8Bytes text < utf8Bytes other := by
  rw [utf8Bytes_eq, utf8Bytes_eq]
  exact flatMap_utf8EncodeChar_lt (String.lt_iff.mp before)

end ElasticNet
