import Courier.Proofs.Double.Errors
import Courier.Proofs.Double.Operations

/-!
# Products of doubles

A significand and a power of ten are rounded to doubles next to them, and the product of the doubles
is finite if it is below the point from which on results are rounded to infinity.

## Main results

* `Double.isInf_of_mul_lt`: a number far enough below the limit is read as a finite double.
* `Double.isInf_mul_powerOfTen`: so is the number that the digits of a double make up, unless the
  double is the largest one.
-/

namespace Courier.Double

open Json (powerOfTen)

/-- The product is finite if the number is far enough below the limit for two roundings. -/
theorem isInf_of_mul_lt {d n : Nat} (pos : 0 < d) (fits : d < 2 ^ 64) (most : n ≤ 308)
    (small : d * 10 ^ n * (2 ^ 53 + 1) ^ 2 < limit * 2 ^ 106) :
    ((UInt64.ofNat d).toFloat * powerOfTen n).isInf = false := by
  obtain ⟨v, rounded, held⟩ := holds_toFloat fits
  obtain ⟨w, rounded', held'⟩ := holds_powerOfTen most
  have near := (within_significand pos rounded).le
  have near' := (within_power rounded').le
  generalize 10 ^ n = p at small near'
  have small : (d : ℚ) * p * (2 ^ 53 + 1) ^ 2 < limit * 2 ^ 106 := by exact_mod_cast small
  have both : v * w ≤ (1 + unit) * d * ((1 + unit) * p) :=
    mul_le_mul near near' held'.shows.nonneg
      (mul_nonneg (by norm_num [unit]) (Nat.cast_nonneg d))
  have scale : (1 + unit) * d * ((1 + unit) * p) * 2 ^ 106 = d * p * (2 ^ 53 + 1) ^ 2 := by
    unfold unit
    ring
  have below : v * w < limit := by
    refine both.trans_lt (lt_of_mul_lt_mul_right ?_ (by positivity : (0 : ℚ) ≤ 2 ^ 106))
    rwa [scale]
  obtain ⟨u, -, product⟩ := held.mul held' below
  exact product.isInf_eq_false

/-- With the power of ten that comes closest to the limit the roundings need a second look: a
number of at most 54 bits is rounded by at most one, and the power of ten hardly at all. -/
theorem isInf_mul_powerOfTen_292 {d : Nat} (small : d ≤ 17976931348623156) :
    ((UInt64.ofNat d).toFloat * powerOfTen 292).isInf = false := by
  obtain ⟨v, rounded, held⟩ := holds_toFloat (n := d) (by omega)
  obtain ⟨w, rounded', held'⟩ := holds_powerOfTen (n := 292) (by decide)
  have power : w = (4512985939662074 * 2 ^ 918 : Nat) :=
    rounded'.eq_of_close (by decide +kernel) (by decide +kernel) (by decide +kernel)
      (by decide +kernel)
  have near : v ≤ (17976931348623157 : Nat) := by
    have bits : (d : ℚ) < 2 ^ (54 : Int) := by
      have bits : d < 2 ^ 54 := by omega
      exact_mod_cast bits
    have half := (abs_le.1 (rounded.near (e := 1) (by decide) bits)).2
    have most : (d : ℚ) ≤ (17976931348623156 : Nat) := Nat.cast_le.2 small
    rw [zpow_one] at half
    push_cast at most ⊢
    linarith
  have below : 17976931348623157 * (4512985939662074 * 2 ^ 918) < limit := by decide +kernel
  have small : v * w < limit := by
    rw [power]
    generalize 4512985939662074 * 2 ^ 918 = p at below
    refine (mul_le_mul_of_nonneg_right near (Nat.cast_nonneg p)).trans_lt ?_
    rw [← Nat.cast_mul]
    exact Nat.cast_lt.2 below
  obtain ⟨u, -, product⟩ := held.mul held' small
  exact product.isInf_eq_false

/-- The digits of a double and their power of ten are read as a finite double, unless they are those
of the largest double. -/
theorem isInf_mul_powerOfTen {d n : Nat} (pos : 0 < d) (few : d ≤ 10 ^ 17)
    (small : d * 10 ^ n ≤ Rounding.top) :
    ((UInt64.ofNat d).toFloat * powerOfTen n).isInf = false := by
  have fits : d < 2 ^ 64 := Nat.lt_of_le_of_lt few (by decide)
  have most := Rounding.exponent_le pos small
  rcases Nat.lt_trichotomy n 292 with below | rfl | above
  · refine isInf_of_mul_lt pos fits most ?_
    have far : 10 ^ 17 * 10 ^ 291 * (2 ^ 53 + 1) ^ 2 < limit * 2 ^ 106 := by decide +kernel
    have grows (k : Nat) (further : n ≤ k) : d * 10 ^ n ≤ 10 ^ 17 * 10 ^ k :=
      Nat.mul_le_mul few (Nat.pow_le_pow_right (by decide) further)
    exact Nat.lt_of_le_of_lt (Nat.mul_le_mul_right _ (grows 291 (by omega))) far
  · refine isInf_mul_powerOfTen_292 ?_
    have next_ : Rounding.top < 17976931348623157 * 10 ^ 292 := by decide +kernel
    have := Nat.lt_of_mul_lt_mul_right (Nat.lt_of_le_of_lt small next_)
    omega
  · -- Sixteen digits before the zeros are left, which is far enough from the limit.
    obtain ⟨k, rfl⟩ := Nat.exists_eq_add_of_le above
    have split : d * 10 ^ (292 + 1 + k) = d * 10 ^ k * 10 ^ (292 + 1) := by
      rw [Nat.mul_assoc, ← Nat.pow_add, Nat.add_comm k]
    rw [split] at small
    have lead : d * 10 ^ k ≤ 1797693134862315 := by
      have next_ : Rounding.top < 1797693134862316 * 10 ^ (292 + 1) := by decide +kernel
      have := Nat.lt_of_mul_lt_mul_right (Nat.lt_of_le_of_lt small next_)
      omega
    refine isInf_of_mul_lt pos fits most ?_
    have far : 1797693134862315 * 10 ^ (292 + 1) * (2 ^ 53 + 1) ^ 2 < limit * 2 ^ 106 := by
      decide +kernel
    rw [split]
    exact Nat.lt_of_le_of_lt (Nat.mul_le_mul_right _ (Nat.mul_le_mul_right _ lead)) far

end Courier.Double
