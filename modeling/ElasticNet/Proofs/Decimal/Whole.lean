import ElasticNet.Decimal.Binary64
import Mathlib.Algebra.Group.Nat.Defs
import Mathlib.Logic.Function.Iterate

namespace ElasticNet.Decimal.Binary64

open Float.Model Float.Model.UnpackedFloat

theorem mantissaBits_binary64 : Format.binary64.mantissaBits = 53 := rfl

theorem finite_congr {sign : Sign} {mantissa other : Nat} {exponent otherExponent : Int}
    {positive : 0 < mantissa} {otherPositive : 0 < other} (mantissas : mantissa = other)
    (exponents : exponent = otherExponent) :
    UnpackedFloat.finite sign mantissa exponent positive =
      .finite sign other otherExponent otherPositive := by
  subst mantissas exponents
  rfl

theorem log2_mul_pow {m : Nat} (positive : 0 < m) (places : Nat) :
    (m * 2 ^ places).log2 = m.log2 + places := by
  induction places with
  | zero => simp
  | succ places ih =>
    have nonzero : m * 2 ^ places ≠ 0 := Nat.mul_ne_zero (by omega) (by simp)
    rw [Nat.pow_succ, ← Nat.mul_assoc, Nat.mul_comm _ 2, Nat.log2_two_mul nonzero, ih]
    rfl

theorem shiftRight_whole (m places : Nat) :
    (⟨m * 2 ^ places, false, false⟩ : ExtendedMantissa) >>> places = ⟨m, false, false⟩ := by
  have general (rest : Nat) : Nat.repeat ExtendedMantissa.shiftRightOne places
      ⟨m * 2 ^ (rest + places), false, false⟩ = ⟨m * 2 ^ rest, false, false⟩ := by
    induction places generalizing rest with
    | zero => rfl
    | succ places ih =>
      rw [Nat.repeat, Nat.add_succ, ← Nat.succ_add, ih]
      simp [ExtendedMantissa.shiftRightOne, Nat.pow_succ, ← Nat.mul_assoc]
  have here := general 0
  rw [Nat.zero_add, Nat.pow_zero, Nat.mul_one] at here
  exact here

theorem round_whole {m : Nat} (positive : 0 < m) (full : m.log2 = 52) (sign : Sign)
    (exponent : Int) (large : -1074 ≤ exponent) (places : Nat) :
    roundWithAccuracy Format.binary64 sign (m * 2 ^ places) (exponent - places) .exact =
      .finite sign m exponent positive := by
  have target (low : Nat) : Format.binary64.targetExponent
      (totalExponent (m * 2 ^ low) (exponent - low)) = exponent := by
    unfold Format.targetExponent totalExponent
    rw [log2_mul_pow positive, full]
    simp only [mantissaBits_binary64, Format.minExponent]
    omega
  have shifted (low : Nat) : shiftToTargetExponent Format.binary64 (m * 2 ^ low) (exponent - low)
      .exact = (⟨m, false, false⟩, exponent) := by
    unfold shiftToTargetExponent shiftToExponent
    rw [target]
    have amount : (exponent - (exponent - (low : Int))).toNat = low := by omega
    simp only [amount, ExtendedMantissa.ofMantissaAndAccuracy, shiftRight_whole]
    congr 1
    omega
  have again := shifted 0
  simp only [Nat.pow_zero, Nat.mul_one, Int.natCast_zero, Int.sub_zero] at again
  unfold roundWithAccuracy
  rw [shifted places]
  dsimp only [ExtendedMantissa.roundedMantissa, ExtendedMantissa.accuracy,
    Accuracy.roundToNearestEven]
  have nonzero : (shiftToTargetExponent Format.binary64 m exponent .exact).1.mantissa ≠ 0 := by
    rw [again]
    exact Nat.ne_of_gt positive
  rw [dif_neg nonzero]
  exact finite_congr (by rw [again]) (by rw [again])

def filled (n : Nat) : Nat :=
  n * 2 ^ (52 - n.log2)

theorem log2_filled {n : Nat} (positive : 0 < n) (small : n < 2 ^ 53) : (filled n).log2 = 52 := by
  have leading := (Nat.log2_lt (by omega)).mpr small
  unfold filled
  rw [log2_mul_pow positive]
  omega

theorem filled_pos {n : Nat} (positive : 0 < n) : 0 < filled n :=
  Nat.mul_pos positive (Nat.two_pow_pos _)

theorem normalize_whole {n : Nat} (positive : 0 < n) (small : n < 2 ^ 53) (zeros : Nat)
    (sign : Sign) :
    UnpackedFloat.normalize Format.binary64 (n * 2 ^ zeros : Nat) (-zeros) sign =
      .finite .positive (filled n) (n.log2 - 52) (filled_pos positive) := by
  have leading := (Nat.log2_lt (by omega)).mpr small
  have target : Format.binary64.targetExponent (totalExponent (n * 2 ^ zeros) (-zeros)) =
      (n.log2 : Int) - 52 := by
    unfold Format.targetExponent totalExponent
    rw [log2_mul_pow positive]
    simp only [mantissaBits_binary64, Format.minExponent]
    omega
  have above : compare ((n * 2 ^ zeros : Nat) : Int) 0 = .gt := by
    rw [Int.compare_eq_gt]
    exact Int.natCast_pos.mpr (Nat.mul_pos positive (Nat.two_pow_pos zeros))
  -- zeros are put behind the number or taken away, depending on how many there are
  have moved : n * 2 ^ zeros * 2 ^ (52 - n.log2 - zeros) =
      filled n * 2 ^ (zeros - (52 - n.log2)) := by
    unfold filled
    rw [Nat.mul_assoc, Nat.mul_assoc, ← Nat.pow_add, ← Nat.pow_add]
    congr 2
    omega
  have lowered : decreaseExponent (n * 2 ^ zeros) (-zeros) ((n.log2 : Int) - 52) =
      (filled n * 2 ^ (zeros - (52 - n.log2)),
        (n.log2 : Int) - 52 - (zeros - (52 - n.log2) : Nat)) := by
    have amount : (-(zeros : Int) - ((n.log2 : Int) - 52)).toNat = 52 - n.log2 - zeros := by omega
    unfold decreaseExponent
    dsimp only
    rw [amount, Nat.shiftLeft_eq, moved]
    congr 1
    omega
  unfold UnpackedFloat.normalize UnpackedFloat.round
  rw [above]
  dsimp only
  rw [Int.toNat_natCast, target, lowered]
  exact round_whole (filled_pos positive) (log2_filled positive small) .positive _ (by omega) _

theorem unpacked_ofNat {n : Nat} (positive : 0 < n) (small : n < 2 ^ 53) :
    UnpackedFloat.ofNat Format.binary64 n =
      .finite .positive (filled n) (n.log2 - 52) (filled_pos positive) := by
  have normal := normalize_whole positive small 0 .positive
  rw [Nat.pow_zero, Nat.mul_one] at normal
  exact normal

theorem append_leading (m : BitVec 52) : (1#1 ++ m).toNat = 2 ^ 52 + m.toNat := by
  rw [BitVec.toNat_append, ← Nat.shiftLeft_add_eq_or_of_lt m.isLt]
  simp [Nat.shiftLeft_eq]

theorem toNat_packComponents (exponent : BitVec 11) (fraction : BitVec 52) :
    (packComponents Format.binary64 .positive exponent fraction).toNat =
      exponent.toNat * 2 ^ 52 + fraction.toNat := by
  unfold packComponents Sign.toBitVec
  rw [BitVec.toNat_append, ← Nat.shiftLeft_add_eq_or_of_lt fraction.isLt, BitVec.toNat_append,
    ← Nat.shiftLeft_add_eq_or_of_lt exponent.isLt]
  simp [Nat.shiftLeft_eq]

theorem unpack_of_bits {bits : BitVec 64} {biased fraction : Nat}
    (made : bits.toNat = biased * 2 ^ 52 + fraction) (least : 0 < biased) (most : biased < 2047)
    (below : fraction < 2 ^ 52) :
    UnpackedFloat.unpack Format.binary64 bits =
      .finite .positive (2 ^ 52 + fraction) (biased - 1075) (by omega) := by
  have fractionBits : (@unpackMantissa Format.binary64 bits).toNat = fraction := by
    simp only [unpackMantissa, BitVec.toNat_cast, BitVec.extractLsb_toNat, made]
    omega
  have exponentBits : (@unpackExponent Format.binary64 bits).toNat = biased := by
    simp only [unpackExponent, BitVec.toNat_cast, BitVec.extractLsb_toNat, made,
      Nat.shiftRight_eq_div_pow]
    omega
  have signBit : @unpackSign Format.binary64 bits = 0#1 := by
    apply BitVec.eq_of_toNat_eq
    change (BitVec.extractLsb 63 63 bits).toNat = _
    rw [BitVec.extractLsb_toNat, made, Nat.shiftRight_eq_div_pow, BitVec.toNat_ofNat]
    omega
  unfold UnpackedFloat.unpack
  dsimp only
  rw [signBit, if_neg, if_neg]
  · apply finite_congr
    · rw [append_leading, fractionBits]
    · rw [exponentBits]
      rfl
  · intro zero
    rw [zero] at exponentBits
    simp at exponentBits
    omega
  · intro ones
    rw [ones] at exponentBits
    simp at exponentBits
    omega

theorem toNat_pack {m : Nat} (positive : 0 < m) (full : m.log2 = 52) {exponent : Int}
    (large : -1074 ≤ exponent) (small : exponent ≤ 0) :
    (UnpackedFloat.pack Format.binary64 (.finite .positive m exponent positive)).toNat =
      (exponent + 1075).toNat * 2 ^ 52 + (m - 2 ^ 52) := by
  have least := (Nat.le_log2 (by omega)).mp (Nat.le_of_eq full.symm)
  have most := (Nat.log2_lt (by omega)).mp
    (Nat.lt_of_le_of_lt (Nat.le_of_eq full) (Nat.lt_succ_self 52))
  have biased : (exponent + (Format.binary64.exponentBias : Nat)
      + (Format.binary64.mantissaBitsWithoutImplicit : Nat)).toNat = (exponent + 1075).toNat := by
    simp only [Format.exponentBias]
    omega
  have fits : ¬ 2 ^ Format.binary64.exponentBits ≤ (exponent + 1075).toNat + 1 := by
    simp only
    omega
  have normal : m.log2 + 1 = Format.binary64.mantissaBits := by
    rw [full]
    rfl
  unfold UnpackedFloat.pack
  simp only [biased, fits, if_false, normal, if_true]
  rw [toNat_packComponents, BitVec.toNat_ofNat, BitVec.toNat_ofNat]
  omega

theorem unpack_pack {m : Nat} (positive : 0 < m) (full : m.log2 = 52) {exponent : Int}
    (large : -1073 ≤ exponent) (small : exponent ≤ 0) :
    UnpackedFloat.unpack Format.binary64
      (UnpackedFloat.pack Format.binary64 (.finite .positive m exponent positive)) =
        .finite .positive m exponent positive := by
  have least := (Nat.le_log2 (by omega)).mp (Nat.le_of_eq full.symm)
  have most := (Nat.log2_lt (by omega)).mp
    (Nat.lt_of_le_of_lt (Nat.le_of_eq full) (Nat.lt_succ_self 52))
  rw [unpack_of_bits (toNat_pack positive full (by omega) small) (by omega) (by omega) (by omega),
    UnpackedFloat.finite.injEq]
  refine ⟨rfl, ?_, ?_⟩ <;> omega

theorem bits_ofNat {n : Nat} (positive : 0 < n) (small : n < 2 ^ 53) :
    (Float.ofNat n).toBits.toNat = (n.log2 + 1023) * 2 ^ 52 + (filled n - 2 ^ 52) := by
  have leading := (Nat.log2_lt (by omega)).mpr small
  have full := log2_filled positive small
  have whole : (UInt64.toFloat n.toUInt64).toModel.unpack =
      .finite .positive (filled n) (n.log2 - 52) (filled_pos positive) := by
    change UnpackedFloat.unpack _
      (UnpackedFloat.pack _ (UnpackedFloat.ofNat _ n.toUInt64.toNat)) = _
    have same : n.toUInt64.toNat = n := by
      simp
      omega
    rw [same, unpacked_ofNat positive small]
    exact unpack_pack _ full (by omega) (by omega)
  have one : (Float.ofBits 0x3FF0000000000000).toModel.unpack =
      .finite .positive (2 ^ 52) (-52) (by decide) := by
    rfl
  have product : UnpackedFloat.mul Format.binary64 (UInt64.toFloat n.toUInt64).toModel.unpack
      (Float.ofBits 0x3FF0000000000000).toModel.unpack =
      .finite .positive (filled n) (n.log2 - 52) (filled_pos positive) := by
    rw [whole, one]
    exact round_whole (filled_pos positive) full _ _ (by omega) 52
  have computed : Float.ofNat n = UInt64.toFloat n.toUInt64 * Float.ofBits 0x3FF0000000000000 := by
    change Float.ofScientific n false 0 = _
    unfold Float.ofScientific
    rw [dif_pos ⟨small, by omega⟩]
    rfl
  rw [computed]
  change (UnpackedFloat.pack _ (UnpackedFloat.mul Format.binary64 _ _)).toNat = _
  rw [product, toNat_pack _ full (by omega) (by omega)]
  congr 2
  omega

theorem ofFloat_ofNat {n : Nat} (positive : 0 < n) (small : n < 2 ^ 53) :
    ofFloat (Float.ofNat n) = .finite false (filled n) (n.log2 - 52) := by
  have full := log2_filled positive small
  have leading := (Nat.log2_lt (by omega)).mpr small
  have nonzero := filled_pos positive
  have least := (Nat.le_log2 (by omega)).mp (Nat.le_of_eq full.symm)
  have most := (Nat.log2_lt (by omega)).mp
    (Nat.lt_of_le_of_lt (Nat.le_of_eq full) (Nat.lt_succ_self 52))
  have positiveSign : decide (Nat.pow 2 63 ≤ (n.log2 + 1023) * 2 ^ 52 + (filled n - 2 ^ 52)) =
      false := by
    rw [decide_eq_false_iff_not, Nat.pow_eq]
    omega
  have biased : ((n.log2 + 1023) * 2 ^ 52 + (filled n - 2 ^ 52)) / Nat.pow 2 52 % Nat.pow 2 11 =
      n.log2 + 1023 := by
    rw [Nat.pow_eq, Nat.pow_eq]
    omega
  have fraction : ((n.log2 + 1023) * 2 ^ 52 + (filled n - 2 ^ 52)) % Nat.pow 2 52 =
      filled n - 2 ^ 52 := by
    rw [Nat.pow_eq]
    omega
  unfold ofFloat ofBits
  rw [bits_ofNat positive small]
  simp only [positiveSign, biased, fraction]
  have digits : Nat.pow 2 52 + (filled n - 2 ^ 52) = filled n := by
    rw [Nat.pow_eq]
    omega
  have exponent : leastExponent + (((n.log2 + 1023 : Nat) : Int) - 1) = (n.log2 : Int) - 52 := by
    unfold leastExponent
    omega
  rw [if_neg (by omega), if_neg (by omega), digits, exponent]

/-- A whole number below 2^53 is kept exactly. -/
theorem truncate?_ofNat {n : Nat} (small : n < 2 ^ 53) :
    (ofFloat (Float.ofNat n)).truncate? = some (n : Int) := by
  by_cases zero : n = 0
  · subst n
    decide +kernel
  · have leading := (Nat.log2_lt zero).mpr small
    rw [ofFloat_ofNat (by omega) small]
    unfold truncate? quotient
    by_cases whole : (0 : Int) ≤ (n.log2 : Int) - 52
    · have same : n.log2 = 52 := by omega
      simp [same, filled]
    · have places : (-((n.log2 : Int) - 52)).toNat = 52 - n.log2 := by omega
      simp only [whole, if_false, places, filled, Nat.pow_eq]
      rw [Nat.mul_div_cancel _ (Nat.two_pow_pos _)]
      simp

theorem toSigned_ofNat {n width : Nat} (small : n < 2 ^ 53) (inside : n < 2 ^ (width - 1)) :
    (ofFloat (Float.ofNat n)).toSigned width = n := by
  have cast : (n : Int) < (Nat.pow 2 (width - 1) : Nat) := Int.ofNat_lt.mpr inside
  unfold toSigned
  rw [truncate?_ofNat small]
  exact if_pos ⟨by omega, cast⟩

theorem toUInt32_ofNat {n : Nat} (small : n < 2 ^ 32) :
    (ofFloat (Float.ofNat n)).toUInt32.toNat = n := by
  unfold toUInt32
  rw [toSigned_ofNat (by omega) (by omega)]
  simp [UInt32.ofInt]
  omega

theorem toUInt64_ofNat {n : Nat} (small : n < 2 ^ 53) :
    (ofFloat (Float.ofNat n)).toUInt64.toNat = n := by
  unfold toUInt64
  rw [toSigned_ofNat (by omega) (by omega), truncate?_ofNat small]
  have below : (n : Int) < (Nat.pow 2 63 : Nat) := by
    rw [Nat.pow_eq]
    omega
  simp only [below, if_true, UInt64.ofInt]
  simp
  omega

theorem eq_of_toBits {x y : Float} (same : x.toBits.toNat = y.toBits.toNat) : x = y := by
  obtain ⟨⟨bits, valid⟩⟩ := x
  obtain ⟨⟨otherBits, otherValid⟩⟩ := y
  cases UInt64.toNat_inj.mp same
  rfl

theorem unpack_ofNat {n : Nat} (positive : 0 < n) (small : n < 2 ^ 53) :
    (Float.ofNat n).toModel.unpack =
      .finite .positive (filled n) (n.log2 - 52) (filled_pos positive) := by
  have full := log2_filled positive small
  have nonzero := Nat.ne_of_gt (filled_pos positive)
  have least := (Nat.le_log2 nonzero).mp (Nat.le_of_eq full.symm)
  have most := (Nat.log2_lt nonzero).mp
    (Nat.lt_of_le_of_lt (Nat.le_of_eq full) (Nat.lt_succ_self 52))
  have leading := (Nat.log2_lt (Nat.ne_of_gt positive)).mpr small
  change UnpackedFloat.unpack Format.binary64 (Float.ofNat n).toBits.toBitVec = _
  rw [unpack_of_bits (bits_ofNat positive small) (by omega) (by omega) (by omega),
    UnpackedFloat.finite.injEq]
  refine ⟨rfl, ?_, ?_⟩ <;> omega

theorem toNat_pack_filled {n : Nat} (positive : 0 < n) (small : n < 2 ^ 53) :
    (UnpackedFloat.pack Format.binary64
      (.finite .positive (filled n) (n.log2 - 52) (filled_pos positive))).toNat =
        (Float.ofNat n).toBits.toNat := by
  have leading := (Nat.log2_lt (Nat.ne_of_gt positive)).mpr small
  rw [toNat_pack _ (log2_filled positive small) (by omega) (by omega), bits_ofNat positive small]
  congr 2
  omega

theorem decreaseExponent_filled {n low : Nat} (leading : n.log2 ≤ 52) (below : low ≤ n.log2) :
    decreaseExponent (filled n) (n.log2 - 52) ((low : Int) - 52) =
      (n * 2 ^ (52 - low), -((52 - low : Nat) : Int)) := by
  have amount : ((n.log2 : Int) - 52 - ((low : Int) - 52)).toNat = n.log2 - low := by omega
  have moved : filled n * 2 ^ (n.log2 - low) = n * 2 ^ (52 - low) := by
    unfold filled
    rw [Nat.mul_assoc, ← Nat.pow_add]
    congr 2
    omega
  unfold decreaseExponent
  dsimp only
  rw [amount, Nat.shiftLeft_eq, moved]
  congr 1
  omega

theorem ofNat_add_of_pos {m n : Nat} (positive : 0 < m) (otherPositive : 0 < n)
    (small : m + n < 2 ^ 53) : Float.ofNat m + Float.ofNat n = Float.ofNat (m + n) := by
  have both : 0 < m + n := Nat.add_pos_left positive n
  have below : m < 2 ^ 53 := Nat.lt_of_le_of_lt (Nat.le_add_right m n) small
  have otherBelow : n < 2 ^ 53 := Nat.lt_of_le_of_lt (Nat.le_add_left n m) small
  have leading := (Nat.log2_lt (Nat.ne_of_gt positive)).mpr below
  have otherLeading := (Nat.log2_lt (Nat.ne_of_gt otherPositive)).mpr otherBelow
  -- both are brought to the exponent of the smaller one, where their digits add up
  have exponents : min ((m.log2 : Int) - 52) ((n.log2 : Int) - 52) =
      ((min m.log2 n.log2 : Nat) : Int) - 52 := by omega
  have sum : UnpackedFloat.add Format.binary64 (Float.ofNat m).toModel.unpack
      (Float.ofNat n).toModel.unpack =
      .finite .positive (filled (m + n)) ((m + n).log2 - 52) (filled_pos both) := by
    have rounded := normalize_whole both small (52 - min m.log2 n.log2) .positive
    have place : ((min m.log2 n.log2 : Nat) : Int) - 52 =
        -((52 - min m.log2 n.log2 : Nat) : Int) := by omega
    rw [Nat.add_mul, ← place] at rounded
    rw [unpack_ofNat positive below, unpack_ofNat otherPositive otherBelow]
    unfold UnpackedFloat.add
    dsimp only
    rw [exponents, decreaseExponent_filled (by omega) (Nat.min_le_left _ _),
      decreaseExponent_filled (by omega) (Nat.min_le_right _ _)]
    exact rounded
  apply eq_of_toBits
  change (UnpackedFloat.pack _ (UnpackedFloat.add Format.binary64 _ _)).toNat = _
  rw [sum, toNat_pack_filled both small]

theorem ofNat_add {m n : Nat} (small : m + n < 2 ^ 53) :
    Float.ofNat m + Float.ofNat n = Float.ofNat (m + n) := by
  have nothing : (Float.ofNat 0).toModel.unpack = .zero .positive := by rfl
  rcases Nat.eq_zero_or_pos m with rfl | positive
  · rcases Nat.eq_zero_or_pos n with rfl | otherPositive
    · rfl
    · rw [Nat.zero_add] at small ⊢
      apply eq_of_toBits
      change (UnpackedFloat.pack _ (UnpackedFloat.add Format.binary64 _ _)).toNat = _
      rw [nothing, unpack_ofNat otherPositive small]
      exact toNat_pack_filled otherPositive small
  · rcases Nat.eq_zero_or_pos n with rfl | otherPositive
    · apply eq_of_toBits
      change (UnpackedFloat.pack _ (UnpackedFloat.add Format.binary64 _ _)).toNat = _
      rw [nothing, unpack_ofNat positive small]
      exact toNat_pack_filled positive small
    · exact ofNat_add_of_pos positive otherPositive small

theorem ofNat_ne_zero {n : Nat} (positive : 0 < n) (small : n < 2 ^ 53) :
    (Float.ofNat n == 0) = false := by
  have nothing : (0 : Float).toModel.unpack = .zero .positive := by rfl
  change ((Float.ofNat n).toModel.unpack.compare (0 : Float).toModel.unpack == some .eq) = false
  rw [unpack_ofNat positive small, nothing]
  rfl

theorem iterate_add_one (n : Nat) : ∃ m, 0 < m ∧ m ≤ 2 ^ 53 ∧
    (· + 1)^[n + 1] (0 : Float) = Float.ofNat m := by
  induction n with
  | zero => exact ⟨1, by decide, by decide, by decide +kernel⟩
  | succ n ih =>
    obtain ⟨m, positive, small, counted⟩ := ih
    rw [Function.iterate_succ_apply', counted]
    by_cases below : m + 1 < 2 ^ 53
    · exact ⟨m + 1, Nat.succ_pos m, Nat.le_of_lt below, ofNat_add below⟩
    · refine ⟨2 ^ 53, by decide, Nat.le_refl _, ?_⟩
      -- the last two numbers: from the second on one more is rounded away
      have last : m = 2 ^ 53 - 1 ∨ m = 2 ^ 53 := by omega
      rcases last with rfl | rfl
      · decide +kernel
      · decide +kernel

theorem toUInt64_iterate_add_one (n : Nat) :
    (ofFloat ((· + 1)^[n + 1] (0 : Float))).toUInt64 ≠ 0 := by
  obtain ⟨m, positive, small, counted⟩ := iterate_add_one n
  rw [counted]
  by_cases below : m < 2 ^ 53
  · intro none
    have kept := toUInt64_ofNat below
    rw [none] at kept
    exact Nat.ne_of_gt positive kept.symm
  · obtain rfl : m = 2 ^ 53 := by omega
    decide +kernel

end ElasticNet.Decimal.Binary64
