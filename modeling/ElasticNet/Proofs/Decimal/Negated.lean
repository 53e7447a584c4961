import ElasticNet.Proofs.Decimal.Whole

namespace ElasticNet.Decimal.Binary64

open Float.Model Float.Model.UnpackedFloat

theorem toNat_packComponents_negative (exponent : BitVec 11) (fraction : BitVec 52) :
    (packComponents Format.binary64 .negative exponent fraction).toNat =
      2 ^ 63 + (packComponents Format.binary64 .positive exponent fraction).toNat := by
  rw [toNat_packComponents]
  unfold packComponents Sign.toBitVec
  rw [BitVec.toNat_append, ← Nat.shiftLeft_add_eq_or_of_lt fraction.isLt, BitVec.toNat_append,
    ← Nat.shiftLeft_add_eq_or_of_lt exponent.isLt]
  simp [Nat.shiftLeft_eq]
  omega

theorem toNat_pack_negative {m : Nat} (positive : 0 < m) (exponent : Int) :
    (UnpackedFloat.pack Format.binary64 (.finite .negative m exponent positive)).toNat =
      2 ^ 63 + (UnpackedFloat.pack Format.binary64 (.finite .positive m exponent positive)).toNat
    := by
  unfold UnpackedFloat.pack
  dsimp only
  split
  · exact toNat_packComponents_negative _ _
  · split
    · exact toNat_packComponents_negative _ _
    · exact toNat_packComponents_negative _ _

theorem toBits_neg_ofNat {n : Nat} (positive : 0 < n) (small : n < 2 ^ 53) :
    (-Float.ofNat n).toBits.toNat = 2 ^ 63 + (Float.ofNat n).toBits.toNat := by
  change (UnpackedFloat.pack _ (UnpackedFloat.neg (Float.ofNat n).toModel.unpack)).toNat = _
  rw [unpack_ofNat positive small]
  exact (toNat_pack_negative _ _).trans
    (congrArg (2 ^ 63 + ·) (toNat_pack_filled positive small))

theorem ofBits_negative {bits digits : Nat} {exponent : Int}
    (finite : ofBits bits = .finite false digits exponent) :
    ofBits (2 ^ 63 + bits) = .finite true digits exponent := by
  have sign : decide (Nat.pow 2 63 ≤ 2 ^ 63 + bits) = true := by simp
  have biased : (2 ^ 63 + bits) / Nat.pow 2 52 % Nat.pow 2 11 =
      bits / Nat.pow 2 52 % Nat.pow 2 11 := by
    rw [Nat.pow_eq, Nat.pow_eq]
    omega
  have fraction : (2 ^ 63 + bits) % Nat.pow 2 52 = bits % Nat.pow 2 52 := by
    rw [Nat.pow_eq]
    omega
  unfold ofBits at finite ⊢
  simp only [sign, biased, fraction]
  simp only at finite
  split at finite
  · split at finite <;> cases finite
  · next finiteBits =>
    rw [if_neg finiteBits]
    split at finite
    · next least =>
      obtain ⟨-, rfl, rfl⟩ := Binary64.finite.inj finite
      exact if_pos least
    · next more =>
      obtain ⟨-, rfl, rfl⟩ := Binary64.finite.inj finite
      exact if_neg more

theorem truncate?_neg_ofNat {n : Nat} (positive : 0 < n) (small : n < 2 ^ 53) :
    (ofFloat (-Float.ofNat n)).truncate? = some (-(n : Int)) := by
  have whole := ofFloat_ofNat positive small
  have size := truncate?_ofNat small
  have negated : ofFloat (-Float.ofNat n) = .finite true (filled n) (n.log2 - 52) := by
    unfold ofFloat at whole ⊢
    rw [toBits_neg_ofNat positive small]
    exact ofBits_negative whole
  rw [whole] at size
  rw [negated]
  unfold truncate? at size ⊢
  exact congrArg (fun size : Int => some (-size)) (Option.some.inj size)

theorem toSigned_neg_ofNat {n : Nat} (positive : 0 < n) (small : n ≤ 2 ^ 31) :
    (ofFloat (-Float.ofNat n)).toSigned 32 = -n := by
  have cast : ((Nat.pow 2 31 : Nat) : Int) = 2 ^ 31 := by rfl
  unfold toSigned
  rw [truncate?_neg_ofNat positive (by omega)]
  refine if_pos ⟨?_, ?_⟩
  · rw [cast]
    omega
  · rw [cast]
    omega

end ElasticNet.Decimal.Binary64
