import ElasticNet.Model
import ElasticNet.Proofs.Decimal.Negated

namespace ElasticNet

/-- Arithmetic in which the whole numbers of words, of counts and of codes are read back as they
    were. -/
class Scalar.KeepsCounts (α : Type) [Scalar α] : Prop where
  natCast_zero : ((0 : Nat) : α) = 0
  toUInt32_natCast : ∀ n : Nat, n < UInt32.size → (Scalar.toUInt32 (n : α)).toNat = n
  toUInt64_natCast : ∀ n : Nat, n < 2 ^ 53 → (Scalar.toUInt64 (n : α)).toNat = n
  toCode_natCast : ∀ n : Nat, n < 2 ^ 31 → Scalar.toCode (n : α) = n

instance : Scalar.KeepsCounts Float where
  natCast_zero := by rfl
  toUInt32_natCast _ small := Decimal.Binary64.toUInt32_ofNat small
  toUInt64_natCast _ small := Decimal.Binary64.toUInt64_ofNat small
  toCode_natCast _ small := Decimal.Binary64.toSigned_ofNat (by omega) small

/-- Arithmetic in which counting up from zero never reads as zero again. -/
class Scalar.CountsUp (α : Type) [Scalar α] : Prop where
  toUInt64_iterate : ∀ n : Nat, Scalar.toUInt64 ((· + 1)^[n + 1] (0 : α)) ≠ 0

instance : Scalar.CountsUp Float where
  toUInt64_iterate := Decimal.Binary64.toUInt64_iterate_add_one

/-- Arithmetic in which whole numbers below 2^53 add up, and none of them is zero but the first. -/
class Scalar.AddsCounts (α : Type) [Scalar α] : Prop extends Scalar.KeepsCounts α where
  natCast_one : ((1 : Nat) : α) = 1
  natCast_add : ∀ m n : Nat, m + n < 2 ^ 53 → (m : α) + (n : α) = ((m + n : Nat) : α)
  natCast_ne_zero : ∀ n : Nat, 0 < n → n < 2 ^ 53 → ((n : α) == 0) = false

instance : Scalar.AddsCounts Float where
  natCast_one := by rfl
  natCast_add _ _ small := Decimal.Binary64.ofNat_add small
  natCast_ne_zero _ positive small := Decimal.Binary64.ofNat_ne_zero positive small

/-- Arithmetic in which negative codes are read back as they were as well. -/
class Scalar.KeepsCodes (α : Type) [Scalar α] : Prop extends Scalar.KeepsCounts α where
  toCode_neg_natCast : ∀ n : Nat, 0 < n → n ≤ 2 ^ 31 → Scalar.toCode (-(n : α)) = -n

instance : Scalar.KeepsCodes Float where
  toCode_neg_natCast _ positive small := Decimal.Binary64.toSigned_neg_ofNat positive small

def Scalar.ofCode {α : Type} [Scalar α] (code : Int32) : α :=
  if code.toInt < 0 then -((-code.toInt).toNat : α) else (code.toInt.toNat : α)

theorem Scalar.toCode_ofCode {α : Type} [Scalar α] [Scalar.KeepsCodes α] (code : Int32) :
    Scalar.toCode (Scalar.ofCode code : α) = code.toInt := by
  have least := code.le_toInt
  have most := code.toInt_lt
  unfold Scalar.ofCode
  by_cases negative : code.toInt < 0
  · rw [if_pos negative, Scalar.KeepsCodes.toCode_neg_natCast _ (by omega) (by omega)]
    omega
  · rw [if_neg negative, Scalar.KeepsCounts.toCode_natCast _ (by omega)]
    omega

variable {α : Type} [Scalar α] [Scalar.KeepsCounts α]

theorem Scalar.toUInt64_natCast_eq_zero {n : Nat} (small : n < 2 ^ 53) :
    Scalar.toUInt64 (n : α) = 0 ↔ n = 0 := by
  rw [← UInt64.toNat_inj, Scalar.KeepsCounts.toUInt64_natCast n small]
  exact Iff.rfl

theorem Scalar.ofCount_toUInt64 {n : Nat} (small : n < 2 ^ 53) :
    Scalar.ofCount (Scalar.toUInt64 (n : α)) = (n : α) := by
  rw [Scalar.ofCount, Scalar.KeepsCounts.toUInt64_natCast n small]

theorem Scalar.toUInt64_zero : Scalar.toUInt64 (0 : α) = 0 := by
  apply UInt64.toNat_inj.mp
  rw [← Scalar.KeepsCounts.natCast_zero]
  exact Scalar.KeepsCounts.toUInt64_natCast 0 (by decide)

theorem Status.ofSlot_slot {status : Status} (named : ∀ code, status ≠ .other code) :
    Status.ofSlot (status.slot : α) = status := by
  unfold Status.ofSlot Status.slot
  cases status with
  | inProcess => rw [Scalar.KeepsCounts.toCode_natCast _ (by decide)]; rfl
  | completed => rw [Scalar.KeepsCounts.toCode_natCast _ (by decide)]; rfl
  | terminated => rw [Scalar.KeepsCounts.toCode_natCast _ (by decide)]; rfl
  | empty => rw [Scalar.KeepsCounts.toCode_natCast _ (by decide)]; rfl
  | other code => exact absurd rfl (named code)

end ElasticNet
