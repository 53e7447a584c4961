import ElasticNet.Igd.Link
import ElasticNet.Proofs.Exact.Sums
import Mathlib.Algebra.BigOperators.Field
import Mathlib.Data.Real.ConjExponents

namespace ElasticNet.Igd

open Exact

variable {d : ℕ}

noncomputable def powerNorm (p : ℝ) (v : Fin d → ℝ) : ℝ :=
  (∑ j, |v j| ^ p) ^ (1 / p)

/-- The image under the link of an exponent. Every entry is scaled by a power of its share of the
    norm. -/
noncomputable def mirror (p : ℝ) (v : Fin d → ℝ) : Fin d → ℝ :=
  fun j => v j * (|v j| / powerNorm p v) ^ (p - 2)

/-- A vector whose entries are zero or larger than what the link takes for zero. -/
def AboveTiny (v : Fin d → ℝ) : Prop :=
  ∀ j, v j ≠ 0 → (2 : ℝ) ^ (-1074 : ℤ) < |v j|

section Norm

variable {p : ℝ} (v : Fin d → ℝ)

theorem sum_powers_nonneg : 0 ≤ ∑ j, |v j| ^ p :=
  Finset.sum_nonneg fun j _ => Real.rpow_nonneg (abs_nonneg (v j)) p

theorem powerNorm_nonneg : 0 ≤ powerNorm p v :=
  Real.rpow_nonneg (sum_powers_nonneg v) _

theorem powerNorm_rpow (nonzero : p ≠ 0) : powerNorm p v ^ p = ∑ j, |v j| ^ p := by
  rw [powerNorm, ← Real.rpow_mul (sum_powers_nonneg v), one_div_mul_cancel nonzero, Real.rpow_one]

theorem powerNorm_zero (nonzero : p ≠ 0) : powerNorm p (0 : Fin d → ℝ) = 0 := by
  have powers : ∑ j, |(0 : Fin d → ℝ) j| ^ p = 0 :=
    Finset.sum_eq_zero fun j _ => by rw [Pi.zero_apply, abs_zero, Real.zero_rpow nonzero]
  rw [powerNorm, powers, Real.zero_rpow (one_div_ne_zero nonzero)]

theorem abs_le_powerNorm (positive : 0 < p) (j : Fin d) : |v j| ≤ powerNorm p v := by
  have part : |v j| ^ p ≤ ∑ i, |v i| ^ p :=
    Finset.single_le_sum (fun i _ => Real.rpow_nonneg (abs_nonneg (v i)) p) (Finset.mem_univ j)
  calc |v j| = (|v j| ^ p) ^ (1 / p) := by
        rw [← Real.rpow_mul (abs_nonneg _), mul_one_div_cancel positive.ne', Real.rpow_one]
    _ ≤ powerNorm p v :=
        Real.rpow_le_rpow (Real.rpow_nonneg (abs_nonneg _) p) part (one_div_pos.mpr positive).le

variable {v}

theorem powerNorm_pos (positive : 0 < p) (nonzero : v ≠ 0) : 0 < powerNorm p v := by
  obtain ⟨j, entry⟩ := Function.ne_iff.mp nonzero
  exact (abs_pos.mpr entry).trans_le (abs_le_powerNorm v positive j)

end Norm

section Image

variable {p q : ℝ} (v : Fin d → ℝ)

theorem mirror_zero : mirror p (0 : Fin d → ℝ) = 0 :=
  funext fun _ => zero_mul _

theorem mirror_two : mirror 2 v = v := by
  funext j
  rw [mirror, sub_self, Real.rpow_zero, mul_one]

variable {v}

theorem sign_mirror (positive : 0 < powerNorm p v) (j : Fin d) :
    SignType.sign (mirror p v j) = SignType.sign (v j) := by
  by_cases zero : v j = 0
  · rw [mirror, zero, zero_mul]
  · have scaled : 0 < (|v j| / powerNorm p v) ^ (p - 2) :=
      Real.rpow_pos_of_pos (div_pos (abs_pos.mpr zero) positive) _
    rw [mirror, sign_mul, sign_pos scaled, mul_one]

theorem abs_mirror (large : 1 < p) (positive : 0 < powerNorm p v) (j : Fin d) :
    |mirror p v j| = powerNorm p v * (|v j| / powerNorm p v) ^ (p - 1) := by
  have share : 0 ≤ |v j| / powerNorm p v := div_nonneg (abs_nonneg _) positive.le
  have more : 1 + (p - 2) ≠ 0 := by linarith
  calc |mirror p v j| = |v j| * (|v j| / powerNorm p v) ^ (p - 2) := by
        rw [mirror, abs_mul, abs_of_nonneg (Real.rpow_nonneg share _)]
    _ = powerNorm p v * ((|v j| / powerNorm p v) * (|v j| / powerNorm p v) ^ (p - 2)) := by
        rw [← mul_assoc, mul_div_cancel₀ _ positive.ne']
    _ = powerNorm p v * (|v j| / powerNorm p v) ^ (p - 1) := by
        rw [← Real.rpow_one_add' share more]
        congr 2
        ring

theorem sum_shares (nonzero : p ≠ 0) (positive : 0 < powerNorm p v) :
    ∑ j, (|v j| / powerNorm p v) ^ p = 1 := by
  calc ∑ j, (|v j| / powerNorm p v) ^ p = ∑ j, |v j| ^ p / powerNorm p v ^ p :=
        Finset.sum_congr rfl fun j _ => Real.div_rpow (abs_nonneg _) positive.le p
    _ = 1 := by
        rw [← Finset.sum_div, ← powerNorm_rpow v nonzero,
          div_self (Real.rpow_pos_of_pos positive p).ne']

/-- The image has, for the dual exponent, the norm that the vector has. -/
theorem powerNorm_mirror (dual : p.HolderConjugate q) :
    powerNorm q (mirror p v) = powerNorm p v := by
  by_cases zero : v = 0
  · rw [zero, mirror_zero, powerNorm_zero dual.ne_zero, powerNorm_zero dual.symm.ne_zero]
  have positive := powerNorm_pos dual.pos zero
  have powers : ∑ j, |mirror p v j| ^ q = powerNorm p v ^ q := by
    calc ∑ j, |mirror p v j| ^ q = ∑ j, powerNorm p v ^ q * (|v j| / powerNorm p v) ^ p := by
          refine Finset.sum_congr rfl fun j _ => ?_
          have share : 0 ≤ |v j| / powerNorm p v := div_nonneg (abs_nonneg _) positive.le
          rw [abs_mirror dual.lt positive, Real.mul_rpow positive.le (Real.rpow_nonneg share _),
            ← Real.rpow_mul share, dual.sub_one_mul_conj]
      _ = powerNorm p v ^ q := by
          rw [← Finset.mul_sum, sum_shares dual.ne_zero positive, mul_one]
  rw [powerNorm, powers, ← Real.rpow_mul positive.le, mul_one_div_cancel dual.symm.ne_zero,
    Real.rpow_one]

/-- The link of the dual exponent takes the image back. -/
theorem mirror_mirror (dual : p.HolderConjugate q) : mirror q (mirror p v) = v := by
  by_cases none : v = 0
  · rw [none, mirror_zero, mirror_zero]
  have positive := powerNorm_pos dual.pos none
  funext j
  by_cases zero : v j = 0
  · rw [mirror, mirror, zero, zero_mul, zero_mul]
  have share : 0 < |v j| / powerNorm p v := div_pos (abs_pos.mpr zero) positive
  -- the image has the same norm, so both links scale by powers of one and the same share
  have exponents : p - 2 + (p - 1) * (q - 2) = 0 := by
    have whole := dual.sub_one_mul_conj
    linarith
  calc mirror q (mirror p v) j =
        mirror p v j * (|mirror p v j| / powerNorm p v) ^ (q - 2) := by
        rw [mirror, powerNorm_mirror dual]
    _ = v j * ((|v j| / powerNorm p v) ^ (p - 2) *
          ((|v j| / powerNorm p v) ^ (p - 1)) ^ (q - 2)) := by
        rw [abs_mirror dual.lt positive, mul_div_cancel_left₀ _ positive.ne', mirror, mul_assoc]
    _ = v j := by
        rw [← Real.rpow_mul share.le, ← Real.rpow_add share, exponents, Real.rpow_zero, mul_one]

end Image

section Link

variable {p : ℝ} {v : Fin d → ℝ}

theorem pow_number {x : ℝ} (nonnegative : 0 ≤ x) (positive : 0 < p) :
    Scalar.pow (number x) (number p) = number (x ^ p) := by
  refine provided_of _ ?_
  rcases nonnegative.lt_or_eq with more | zero
  · exact .inl more
  · exact .inr ⟨zero.symm, positive.le⟩

theorem pow_number_of_pos {x : ℝ} (positive : 0 < x) (p : ℝ) :
    Scalar.pow (number x) (number p) = number (x ^ p) :=
  provided_of _ (.inl positive)

theorem sign_number (x : ℝ) : Scalar.sign (number x) = number (SignType.sign x) := by
  rcases lt_trichotomy x 0 with negative | rfl | positive
  · have above : ¬(0 : Exact) < number x := not_lt.mpr negative.le
    have below : number x < 0 := negative
    rw [Scalar.sign, if_neg above, if_pos below, sign_neg negative]
    rfl
  · have above : ¬(0 : Exact) < number 0 := lt_irrefl (0 : ℝ)
    have below : ¬number 0 < (0 : Exact) := lt_irrefl (0 : ℝ)
    rw [Scalar.sign, if_neg above, if_neg below, sign_zero]
    rfl
  · have above : (0 : Exact) < number x := positive
    rw [Scalar.sign, if_pos above, sign_pos positive]
    rfl

theorem foldl_powers (positive : 0 < p) (v : Fin d → ℝ) (start : ℝ) :
    (ofVector v).foldl (fun total x =>
      if x != 0 then total + Scalar.pow (Scalar.abs x) (number p) else total) (number start) =
      number (start + ∑ j, |v j| ^ p) := by
  induction d generalizing start with
  | zero =>
    rw [Finset.univ_eq_empty, Finset.sum_empty, add_zero]
    rfl
  | succ n ih =>
    have next : (if number (v 0) != 0 then
        number start + Scalar.pow (Scalar.abs (number (v 0))) (number p) else number start) =
        number (start + |v 0| ^ p) := by
      rw [zero_eq, number_bne, abs_number, pow_number (abs_nonneg _) positive]
      split
      · rfl
      · next zero =>
        rw [decide_eq_true_eq, not_not] at zero
        rw [zero, abs_zero, Real.zero_rpow positive.ne', add_zero]
    rw [ofVector_succ, List.foldl_cons, next, ih, Fin.sum_univ_succ, add_assoc]

theorem norm_ofVector (positive : 0 < p) (v : Fin d → ℝ) :
    norm (number p) (ofVector v) = number (powerNorm p v) := by
  have total := foldl_powers positive v 0
  rw [← zero_eq, zero_add] at total
  unfold norm
  dsimp only
  rw [total, one_eq, number_div _ positive.ne',
    pow_number (sum_powers_nonneg v) (one_div_pos.mpr positive), powerNorm]

theorem tiny_pos : 0 < (2 : ℝ) ^ (-1074 : ℤ) :=
  zpow_pos two_pos _

theorem linkEntry_number {size x : ℝ} (positive : 0 < size)
    (large : x ≠ 0 → (2 : ℝ) ^ (-1074 : ℤ) < |x|) :
    linkEntry (number p) (number (size ^ (p - 2))) (number x) =
      number (x * (|x| / size) ^ (p - 2)) := by
  unfold linkEntry
  by_cases zero : x = 0
  · subst zero
    have small : Scalar.abs (number (0 : ℝ)) ≤ (Scalar.tiny : Exact) := by
      change |(0 : ℝ)| ≤ (2 : ℝ) ^ (-1074 : ℤ)
      rw [abs_zero]
      exact tiny_pos.le
    rw [if_pos small, zero_mul]
    rfl
  · have shown : ¬Scalar.abs (number x) ≤ (Scalar.tiny : Exact) := not_le.mpr (large zero)
    have entry : 0 < |x| := abs_pos.mpr zero
    have power : |x| ^ (p - 1) = |x| * |x| ^ (p - 2) := by
      have exponents : p - 1 = 1 + (p - 2) := by ring
      rw [exponents, Real.rpow_add entry, Real.rpow_one]
    rw [if_neg shown, sign_number, abs_number, one_eq, number_sub, pow_number_of_pos entry,
      number_mul, number_div _ (Real.rpow_pos_of_pos positive _).ne', power,
      Real.div_rpow entry.le positive.le, ← mul_assoc, sign_mul_abs, mul_div_assoc]

/-- Where no entry is taken for zero that is none, the link is the image. -/
theorem link_ofVector (positive : 0 < p) (large : AboveTiny v) :
    link (number p) (ofVector v) = ofVector (mirror p v) := by
  unfold link
  dsimp only
  rw [norm_ofVector positive, abs_number, abs_of_nonneg (powerNorm_nonneg v)]
  by_cases none : v = 0
  · subst none
    have small : number (powerNorm p (0 : Fin d → ℝ)) ≤ (Scalar.tiny : Exact) := by
      rw [powerNorm_zero positive.ne']
      exact tiny_pos.le
    rw [if_pos small, mirror_zero]
    exact map_ofVector (fun _ => 0) (fun _ => 0) (fun _ => rfl) 0
  · obtain ⟨j, entry⟩ := Function.ne_iff.mp none
    have above : (2 : ℝ) ^ (-1074 : ℤ) < powerNorm p v :=
      (large j entry).trans_le (abs_le_powerNorm v positive j)
    have shown : ¬number (powerNorm p v) ≤ (Scalar.tiny : Exact) := not_le.mpr above
    have size : 0 < powerNorm p v := tiny_pos.trans above
    have image : Scalar.pow (number (powerNorm p v)) (number p - 2.0) =
        number (powerNorm p v ^ (p - 2)) := by
      rw [two_eq, number_sub, pow_number_of_pos size]
    rw [if_neg shown, image, ofVector, List.map_ofFn]
    exact congrArg List.ofFn (funext fun i => linkEntry_number size (large i))

end Link

end ElasticNet.Igd
