import ElasticNet.Proofs.Decimal.Order
import ElasticNet.Scalar

namespace ElasticNet

class Scalar.OrdersFinite (α : Type) [Scalar α] : Prop where
  isFinite_zero : Scalar.isFinite (0 : α) = true
  le_of_not_lt : ∀ {x y : α}, Scalar.isFinite x = true → Scalar.isFinite y = true →
    ¬ x < y → y ≤ x
  le_trans : ∀ {x y z : α}, Scalar.isFinite x = true → Scalar.isFinite y = true →
    Scalar.isFinite z = true → x ≤ y → y ≤ z → x ≤ z

open Decimal.Binary64 in
instance : Scalar.OrdersFinite Float where
  isFinite_zero := by decide
  le_of_not_lt := by
    intro x y finite other above
    exact (not_lt_iff finite other).mp above
  le_trans := by
    intro x y z first second third below further
    have lower := (le_iff first second).mp below
    have upper := (le_iff second third).mp further
    exact (le_iff first third).mpr (lower.trans upper)

end ElasticNet
