import Courier.Proofs.Double.Interval

/-!
# Errors of doubles

A rounding moves a number by a small part of it, unless the number is very small, and such parts add
up along products and quotients. Here they are counted for a significand that is multiplied by a
power of ten, or divided by one or two of them. A number in the interval of a double is at most
half a unit in the last place away from the double. Before the last rounding there is an error of
nine quarters of a unit at most, and the last rounding adds half a unit of its own grid. That is
less than four units, and so it is three at most.

## Main definitions

* `Double.Within`: a number is away from another one by a part of it at most.
* `Double.unit`: the part of a number by which it moves when it is rounded.

## Main results

* `Double.Rounds.eq_of_le`, `Double.Rounds.eq_of_pow`: small numbers and powers of ten are kept.
* `Double.within_product`, `Double.within_quotient`, `Double.steps_of_quotients`: the errors before
  the last rounding.
* `Double.near_of_steps`: after the last rounding three units are left.
-/

namespace Courier.Double

/-! ### Relative errors -/

/-- The number `w` is at most the part `c` of `v` away from `v`. -/
def Within (c v w : ℚ) : Prop :=
  |w - v| ≤ c * v

namespace Within

variable {c c' v v' w w' : ℚ}

theorem self (v : ℚ) : Within 0 v v := by
  rw [Within, sub_self, abs_zero, zero_mul]

theorem mono (h : Within c v w) (nonneg : 0 ≤ v) (le : c ≤ c') : Within c' v w :=
  le_trans h (mul_le_mul_of_nonneg_right le nonneg)

theorem le (h : Within c v w) : w ≤ (1 + c) * v := by
  have := (abs_le.1 h).2
  linarith

theorem ge (h : Within c v w) : (1 - c) * v ≤ w := by
  have := (abs_le.1 h).1
  linarith

theorem nonneg (h : Within c v w) (nonneg : 0 ≤ v) (le : c ≤ 1) : 0 ≤ w :=
  (mul_nonneg (sub_nonneg.2 le) nonneg).trans h.ge

theorem trans (h : Within c v w) (h' : Within c' w w') (nonneg : 0 ≤ c') :
    Within (c + c' * (1 + c)) v w' := by
  have step := mul_le_mul_of_nonneg_left h.le nonneg
  calc |w' - v| = |(w' - w) + (w - v)| := by rw [sub_add_sub_cancel]
    _ ≤ |w' - w| + |w - v| := abs_add_le _ _
    _ ≤ c' * w + c * v := add_le_add h' h
    _ ≤ (c + c' * (1 + c)) * v := by linarith

theorem mul (h : Within c v v') (h' : Within c' w w') (hv : 0 ≤ v) (hw : 0 ≤ w') (hc : 0 ≤ c) :
    Within (c' + c * (1 + c')) (v * w) (v' * w') := by
  have first := mul_le_mul_of_nonneg_right h hw
  have second := mul_le_mul_of_nonneg_left h' hv
  have whole := mul_le_mul_of_nonneg_left h'.le (mul_nonneg hc hv)
  calc |v' * w' - v * w| = |(v' - v) * w' + v * (w' - w)| := by ring_nf
    _ ≤ |(v' - v) * w'| + |v * (w' - w)| := abs_add_le _ _
    _ = |v' - v| * w' + v * |w' - w| := by
      rw [abs_mul, abs_mul, abs_of_nonneg hw, abs_of_nonneg hv]
    _ ≤ (c' + c * (1 + c')) * (v * w) := by linarith

theorem div (h : Within c v v') (h' : Within c' w w') (hv : 0 ≤ v) (hw : 0 < w) (hc : c' < 1) :
    Within ((c + c') / (1 - c')) (v / w) (v' / w') := by
  have rest : 0 < 1 - c' := sub_pos.2 hc
  have least : 0 < (1 - c') * w := mul_pos rest hw
  have hw' : 0 < w' := least.trans_le h'.ge
  have first := mul_le_mul_of_nonneg_right h hw.le
  have second := mul_le_mul_of_nonneg_left h' hv
  have difference : v' / w' - v / w = ((v' - v) * w - v * (w' - w)) / (w' * w) := by
    rw [div_sub_div _ _ hw'.ne' hw.ne']
    ring_nf
  have numerator : |(v' - v) * w - v * (w' - w)| ≤ (c + c') * (v * w) := by
    calc |(v' - v) * w - v * (w' - w)| ≤ |(v' - v) * w| + |v * (w' - w)| := abs_sub _ _
      _ = |v' - v| * w + v * |w' - w| := by
        rw [abs_mul, abs_mul, abs_of_pos hw, abs_of_nonneg hv]
      _ ≤ (c + c') * (v * w) := by linarith
  have nonneg : 0 ≤ (c + c') * v := by
    have := (abs_nonneg _).trans numerator
    rw [← mul_assoc] at this
    exact nonneg_of_mul_nonneg_left this hw
  rw [Within, difference, abs_div, abs_of_pos (mul_pos hw' hw)]
  calc |(v' - v) * w - v * (w' - w)| / (w' * w) ≤ (c + c') * (v * w) / (w' * w) :=
        div_le_div_of_nonneg_right numerator (mul_pos hw' hw).le
    _ = (c + c') * v / w' := by rw [← mul_assoc, mul_div_mul_right _ _ hw.ne']
    _ ≤ (c + c') * v / ((1 - c') * w) := div_le_div_of_nonneg_left nonneg least h'.ge
    _ = (c + c') / (1 - c') * (v / w) := by rw [div_mul_div_comm]

end Within

/-! ### Rounding errors -/

/-- The largest part of a number by which it moves when it is rounded. -/
def unit : ℚ :=
  1 / 2 ^ 53

theorem unit_pos : 0 < unit := by
  unfold unit
  positivity

/-- Unless a number is very small it moves by a small part of it. -/
theorem Rounds.within {v u : ℚ} (h : Rounds v u) (large : 2 ^ (-1022 : Int) ≤ v) :
    Within unit v u := by
  refine (h.relative large).trans_eq ?_
  unfold unit
  ring

theorem Rounds.within_of_one_le {v u : ℚ} (h : Rounds v u) (one : 1 ≤ v) : Within unit v u := by
  refine h.within (le_trans ?_ one)
  rw [← zpow_zero (2 : ℚ)]
  exact zpow_le_zpow_right₀ one_le_two (by decide)

/-- A number of at least one is not rounded to much less. -/
theorem Rounds.half_le {v u : ℚ} (h : Rounds v u) (one : 1 ≤ v) : v / 2 ≤ u := by
  have least := (h.within_of_one_le one).ge
  have half : (1 / 2 : ℚ) * v ≤ (1 - unit) * v :=
    mul_le_mul_of_nonneg_right (by norm_num [unit]) (zero_le_one.trans one)
  linarith

/-- A number with few bits is not moved far. -/
theorem Rounds.le_two_pow {v u : ℚ} (h : Rounds v u) (small : v ≤ 2 ^ 66) : u ≤ 2 ^ 67 := by
  have bits : v < 2 ^ ((14 : Int) + 53) := by
    refine small.trans_lt ?_
    norm_num
  have bound := (abs_le.1 (h.near (by decide) bits)).2
  have : (2 : ℚ) ^ (14 : Int) = 2 ^ 14 := rfl
  linarith

/-! ### Numbers that are kept -/

/-- A natural number of 53 bits is kept. -/
theorem Rounds.eq_of_le {m : Nat} {u : ℚ} (h : Rounds m u) (few : m ≤ 2 ^ 53) : u = m := by
  rcases Nat.lt_or_eq_of_le few with bits | rfl
  · have whole : (m : ℚ) = m * 2 ^ (0 : Int) := by rw [zpow_zero, mul_one]
    rw [whole] at h ⊢
    exact h.eq_of_bits bits (by decide)
  · have whole : ((2 ^ 53 : Nat) : ℚ) = (2 ^ 52 : Nat) * 2 ^ (1 : Int) := by norm_num
    rw [whole] at h ⊢
    exact h.eq_of_bits (by decide) (by decide)

/-- A power of ten up to the twenty-second is kept. -/
theorem Rounds.eq_of_pow {n : Nat} {u : ℚ} (h : Rounds (10 ^ n : Nat) u) (short : n ≤ 22) :
    u = (10 ^ n : Nat) := by
  have whole : ((10 ^ n : Nat) : ℚ) = (5 ^ n : Nat) * 2 ^ (n : Int) := by
    rw [zpow_natCast, Nat.cast_pow, Nat.cast_pow, ← mul_pow]
    norm_num
  have bits : 5 ^ n < 2 ^ 53 :=
    Nat.lt_of_le_of_lt (Nat.pow_le_pow_right (by decide) short) (by decide)
  rw [whole] at h ⊢
  exact h.eq_of_bits bits (by omega)

/-! ### The error of the last result but one -/

theorem steps_of_within {D w : ℚ} {s : Nat} {e : Int} (inside : InInterval D s e)
    (canonical : Canonical s e) (h : Within (9 / 4 * unit) D w) : |w - D| ≤ 9 / 4 * 2 ^ e := by
  have bits : (2 : ℚ) ^ (e + 53) = 2 ^ e * 2 ^ 53 := zpow_add₀ two_ne_zero e 53
  have below := inside.lt canonical
  rw [bits] at below
  refine le_trans h ?_
  unfold unit
  linarith

theorem pow_308_bounds : 3 / 10 ≤ ((10 ^ 308 : Nat) : ℚ) * 2 ^ (-1024 : Int) ∧
    ((10 ^ 308 : Nat) : ℚ) * 2 ^ (-1024 : Int) ≤ 3 / 5 := by
  have low : ((3 * 2 ^ 1024 : Nat) : ℚ) ≤ (10 * 10 ^ 308 : Nat) := by
    have low : 3 * 2 ^ 1024 ≤ 10 * 10 ^ 308 := by decide +kernel
    exact Nat.cast_le.2 low
  have high : ((5 * 10 ^ 308 : Nat) : ℚ) ≤ (3 * 2 ^ 1024 : Nat) := by
    have high : 5 * 10 ^ 308 ≤ 3 * 2 ^ 1024 := by decide +kernel
    exact Nat.cast_le.2 high
  have inverse : (2 : ℚ) ^ (-1024 : Int) = ((2 ^ 1024 : Nat) : ℚ)⁻¹ := by
    rw [zpow_neg, Nat.cast_pow, Nat.cast_ofNat]
    exact congrArg _ (zpow_natCast 2 1024)
  rw [Nat.cast_mul, Nat.cast_mul] at low high
  have positive (k : Nat) : (0 : ℚ) < (2 ^ k : Nat) := Nat.cast_pos.2 (Nat.two_pow_pos k)
  rw [inverse, ← div_eq_mul_inv, le_div_iff₀ (positive 1024), div_le_iff₀ (positive 1024)]
  generalize ((2 ^ 1024 : Nat) : ℚ) = t at *
  generalize ((10 ^ 308 : Nat) : ℚ) = p at *
  push_cast at low high
  constructor <;> linarith

theorem within_of_le {n k : Nat} (more : n ≤ k) (near : k * 2 ^ 56 ≤ n * (2 ^ 56 + 1)) :
    Within (unit / 8) n k := by
  have more : (n : ℚ) ≤ k := Nat.cast_le.2 more
  have near : (k : ℚ) * 2 ^ 56 ≤ n * (2 ^ 56 + 1) := by exact_mod_cast near
  rw [Within, abs_of_nonneg (sub_nonneg.2 more)]
  unfold unit
  linarith

theorem within_pow_308 {b : ℚ} (hb : Rounds (10 ^ 308 : Nat) b) :
    Within (unit / 8) (10 ^ 308 : Nat) b := by
  have value : b = (5010420900022432 * 2 ^ 971 : Nat) :=
    hb.eq_of_close (by decide +kernel) (by decide +kernel) (by decide +kernel) (by decide +kernel)
  rw [value]
  exact within_of_le (by decide +kernel) (by decide +kernel)

section Errors

-- The rounded significand and the rounded powers of ten, and the first of two quotients.
variable {m n : Nat} {a b c q : ℚ}

theorem pow_ten_pos (n : Nat) : (0 : ℚ) < (10 ^ n : Nat) :=
  Nat.cast_pos.2 (Nat.pow_pos (by decide))

theorem one_le_pow_ten (n : Nat) : (1 : ℚ) ≤ (10 ^ n : Nat) :=
  Nat.one_le_cast.2 (Nat.pow_pos (by decide))

theorem within_significand (pos : 0 < m) (ha : Rounds m a) : Within unit m a :=
  ha.within_of_one_le (Nat.one_le_cast.2 pos)

theorem within_power (hb : Rounds (10 ^ n : Nat) b) : Within unit (10 ^ n : Nat) b :=
  hb.within_of_one_le (one_le_pow_ten n)

/-- The error of a product of rounded factors. -/
theorem within_product (pos : 0 < m) (ha : Rounds m a) (hb : Rounds (10 ^ n : Nat) b) :
    Within (9 / 4 * unit) (m * (10 ^ n : Nat)) (a * b) := by
  have first := within_significand pos ha
  have second := within_power hb
  have power := pow_ten_pos n
  have nonneg : 0 ≤ b := second.nonneg power.le (by norm_num [unit])
  refine (first.mul second (Nat.cast_nonneg m) nonneg unit_pos.le).mono ?_ ?_
  · exact mul_nonneg (Nat.cast_nonneg m) power.le
  · norm_num [unit]

/-- The error of a quotient of rounded parts. -/
theorem within_quotient (pos : 0 < m) (ha : Rounds m a) (hb : Rounds (10 ^ n : Nat) b) :
    Within (9 / 4 * unit) (m / (10 ^ n : Nat)) (a / b) := by
  have first := within_significand pos ha
  have power := pow_ten_pos n
  refine (first.div (within_power hb) (Nat.cast_nonneg m) power (by norm_num [unit])).mono ?_ ?_
  · exact div_nonneg (Nat.cast_nonneg m) power.le
  · norm_num [unit]

theorem within_first (pos : 0 < m) (ha : Rounds m a) (hb : Rounds (10 ^ 308 : Nat) b) :
    Within (19 / 16 * unit) (m / (10 ^ 308 : Nat)) (a / b) := by
  have first := within_significand pos ha
  have power := pow_ten_pos 308
  refine (first.div (within_pow_308 hb) (Nat.cast_nonneg m) power (by norm_num [unit])).mono ?_ ?_
  · exact div_nonneg (Nat.cast_nonneg m) power.le
  · norm_num [unit]

/-- A number that is very small, but not too small, moves by a few small parts of it. -/
theorem Rounds.within_of_le {v u : ℚ} (h : Rounds v u) (least : 2 ^ (-1024 : Int) ≤ v) :
    Within (4 * unit) v u := by
  rcases le_or_gt ((2 : ℚ) ^ (-1022 : Int)) v with large | small
  · exact (h.within large).mono (le_trans (zpow_nonneg zero_le_two _) least) (by norm_num [unit])
  · have bits : v < 2 ^ ((-1074 : Int) + 53) :=
      small.trans_le (zpow_le_zpow_right₀ one_le_two (by decide))
    have last := h.near (by decide) bits
    have split : (2 : ℚ) ^ (-1074 : Int) = 2 ^ (-1024 : Int) / 2 ^ 50 :=
      zpow_sub₀ two_ne_zero (-1024) 50
    rw [Within]
    rw [split] at last
    unfold unit
    generalize (2 : ℚ) ^ (-1024 : Int) = t at *
    linarith

/-- The first of two quotients is not too small. -/
theorem le_first {i : Nat} (few : i ≤ m) (pos : 0 < i) (ha : Rounds m a)
    (hb : Rounds (10 ^ 308 : Nat) b) :
    3 / 2 * i * 2 ^ (-1024 : Int) ≤ a / b := by
  have first := (within_first (by omega) ha hb).ge
  have bound := pow_308_bounds.2
  have positive := pow_ten_pos 308
  have few : (i : ℚ) ≤ m := Nat.cast_le.2 few
  generalize ((10 ^ 308 : Nat) : ℚ) = p at *
  generalize (2 : ℚ) ^ (-1024 : Int) = t at *
  refine le_trans ?_ first
  rw [← mul_div_assoc, le_div_iff₀ positive]
  have part : (9 / 10 : ℚ) * m ≤ (1 - 19 / 16 * unit) * m :=
    mul_le_mul_of_nonneg_right (by norm_num [unit]) (Nat.cast_nonneg m)
  have nonneg : (0 : ℚ) ≤ i := Nat.cast_nonneg i
  have scaled := mul_le_mul_of_nonneg_left bound nonneg
  linarith

/-- The first of two quotients is not too large. -/
theorem Rounds.first_le (hq : Rounds (a / b) q) (small : a ≤ 2 ^ 67)
    (hb : Rounds (10 ^ 308 : Nat) b) : q ≤ 2 ^ 67 := by
  have least := hb.half_le (one_le_pow_ten 308)
  have four : ((4 : Nat) : ℚ) ≤ (10 ^ 308 : Nat) := by
    have four : 4 ≤ 10 ^ 308 := by decide +kernel
    exact Nat.cast_le.2 four
  generalize ((10 ^ 308 : Nat) : ℚ) = p at least four
  push_cast at four
  refine hq.le_two_pow ?_
  rw [div_le_iff₀ (by linarith)]
  linarith

/-- The error of two quotients, if the number is not too small. -/
theorem within_quotients (few : 3 ≤ m) (short : n ≤ 22) (ha : Rounds m a)
    (hb : Rounds (10 ^ 308 : Nat) b) (hq : Rounds (a / b) q) (hc : Rounds (10 ^ n : Nat) c) :
    Within (9 / 4 * unit) (m / (10 ^ 308 : Nat) / (10 ^ n : Nat)) (q / c) := by
  have large : 2 ^ (-1022 : Int) ≤ a / b := by
    have least := le_first few (by decide) ha hb
    have split : (2 : ℚ) ^ (-1022 : Int) = 2 ^ (-1024 : Int) * 2 ^ 2 :=
      zpow_add₀ two_ne_zero (-1024) 2
    have nonneg : (0 : ℚ) ≤ 2 ^ (-1024 : Int) := zpow_nonneg zero_le_two _
    rw [split]
    generalize (2 : ℚ) ^ (-1024 : Int) = t at *
    push_cast at least
    linarith
  have second := (within_first (by omega) ha hb).trans (hq.within large) unit_pos.le
  have nonneg := div_nonneg (Nat.cast_nonneg m) (pow_ten_pos 308).le
  have power := pow_ten_pos n
  rw [hc.eq_of_pow short]
  refine (second.div (.self _) nonneg power one_pos).mono (div_nonneg nonneg power.le) ?_
  norm_num [unit]

/-- The error of two quotients, however small the number is. -/
theorem within_quotients_of_small (pos : 0 < m) (ha : Rounds m a)
    (hb : Rounds (10 ^ 308 : Nat) b) (hq : Rounds (a / b) q) (hc : Rounds (10 ^ n : Nat) c) :
    Within (8 * unit) (m / (10 ^ 308 : Nat) / (10 ^ n : Nat)) (q / c) := by
  have large : 2 ^ (-1024 : Int) ≤ a / b := by
    have least := le_first (Nat.succ_le_of_lt pos) one_pos ha hb
    have nonneg : (0 : ℚ) ≤ 2 ^ (-1024 : Int) := zpow_nonneg zero_le_two _
    generalize (2 : ℚ) ^ (-1024 : Int) = t at *
    push_cast at least
    linarith
  have second := (within_first pos ha hb).trans (hq.within_of_le large) (by norm_num [unit])
  have nonneg := div_nonneg (Nat.cast_nonneg m) (pow_ten_pos 308).le
  have power := pow_ten_pos n
  refine (second.div (within_power hc) nonneg power (by norm_num [unit])).mono
    (div_nonneg nonneg power.le) ?_
  norm_num [unit]

/-- The digits of a number that is not too small bound the number of its places. -/
theorem three_mul_pow_le {j : Nat}
    (least : 2 ^ (-1024 - j : Int) ≤ (m : ℚ) / (10 ^ 308 : Nat) / (10 ^ n : Nat)) :
    3 * 10 ^ n ≤ 10 * (m * 2 ^ j) := by
  have large := pow_308_bounds.1
  have positive := pow_ten_pos 308
  have positive' := pow_ten_pos n
  have split : (2 : ℚ) ^ (-1024 - j : Int) = 2 ^ (-1024 : Int) / 2 ^ j := by
    rw [zpow_sub₀ two_ne_zero, zpow_natCast]
  rw [split, div_div, div_le_div_iff₀ (pow_pos two_pos j) (mul_pos positive positive')] at least
  have scaled := mul_le_mul_of_nonneg_right large positive'.le
  have bound : (3 : ℚ) * (10 ^ n : Nat) ≤ 10 * (m * 2 ^ j) := by linarith
  exact_mod_cast bound

/-- The places of a number that is not too small are few. -/
theorem places_le (fits : m < 2 ^ 64)
    (least : 2 ^ (-1075 : Int) ≤ (m : ℚ) / (10 ^ 308 : Nat) / (10 ^ n : Nat)) : n ≤ 308 := by
  have bound := three_mul_pow_le (j := 51) least
  by_contra many
  have : 10 ^ 36 ≤ 10 ^ n := Nat.pow_le_pow_right (by decide) (by omega)
  omega

/-- The error of two quotients is at most a few units. -/
theorem steps_of_quotients {s : Nat} {e : Int} (pos : 0 < m) (fits : m < 2 ^ 64) (places : 0 < n)
    (inside : InInterval (m / (10 ^ 308 : Nat) / (10 ^ n : Nat)) s e) (canonical : Canonical s e)
    (ha : Rounds m a) (hb : Rounds (10 ^ 308 : Nat) b) (hq : Rounds (a / b) q)
    (hc : Rounds (10 ^ n : Nat) c) :
    |q / c - m / (10 ^ 308 : Nat) / (10 ^ n : Nat)| ≤ 9 / 4 * 2 ^ e := by
  rcases le_or_gt ((m : ℚ) / (10 ^ 308 : Nat) / (10 ^ n : Nat)) (2 ^ (-1024 : Int))
    with tiny | large
  · -- The error is a small part of a number so small that it is less than the least unit.
    have error := within_quotients_of_small pos ha hb hq hc
    have least : (2 : ℚ) ^ (-1074 : Int) ≤ 2 ^ e := zpow_le_zpow_right₀ one_le_two canonical.least
    have scale : (2 : ℚ) ^ (-1074 : Int) = 2 ^ (-1024 : Int) / 2 ^ 50 :=
      zpow_sub₀ two_ne_zero (-1024) 50
    rw [scale] at least
    refine le_trans error ?_
    unfold unit
    generalize (2 : ℚ) ^ (-1024 : Int) = t at *
    have positive : (0 : ℚ) < 2 ^ e := zpow_pos two_pos e
    linarith
  · have bound := three_mul_pow_le (j := 0) large.le
    have ten : 10 ^ 1 ≤ 10 ^ n := Nat.pow_le_pow_right (by decide) places
    have short : n ≤ 22 := by
      by_contra many
      have : 10 ^ 22 ≤ 10 ^ n := Nat.pow_le_pow_right (by decide) (by omega)
      omega
    exact steps_of_within inside canonical (within_quotients (by omega) short ha hb hq hc)

end Errors

/-! ### The error of the last result -/

theorem abs_sub_le_three {n s k : Nat} {e : Int}
    (less : |(n : ℚ) * 2 ^ (e + k) - s * 2 ^ e| < 4 * 2 ^ e) :
    |(n : ℚ) * 2 ^ (e + k) - s * 2 ^ e| ≤ 3 * 2 ^ e := by
  have positive : (0 : ℚ) < 2 ^ e := zpow_pos two_pos e
  have multiple : (n : ℚ) * 2 ^ (e + k) - s * 2 ^ e = ((n * 2 ^ k - s : Int) : ℚ) * 2 ^ e := by
    rw [zpow_add₀ two_ne_zero, zpow_natCast]
    push_cast
    ring
  rw [multiple, abs_mul, abs_of_pos positive, ← Int.cast_abs] at less ⊢
  have less := lt_of_mul_lt_mul_right less positive.le
  have three : |(n * 2 ^ k - s : Int)| ≤ 3 := Int.le_of_lt_add_one (by exact_mod_cast less)
  refine mul_le_mul_of_nonneg_right ?_ positive.le
  exact_mod_cast three

/-- A number whose error is small is rounded to a double at most three units away. -/
theorem near_of_steps {D w u : ℚ} {s : Nat} {e : Int} (inside : InInterval D s e)
    (canonical : Canonical s e) (steps : |w - D| ≤ 9 / 4 * 2 ^ e) (rounds : Rounds w u) :
    |u - s * 2 ^ e| ≤ 3 * 2 ^ e := by
  have positive : (0 : ℚ) < 2 ^ e := zpow_pos two_pos e
  have sum {c : ℚ} (last : |u - w| ≤ c * 2 ^ e) : |u - s * 2 ^ e| ≤ (c + 11 / 4) * 2 ^ e := by
    have split : u - s * 2 ^ e = (u - w) + (w - D) + (D - s * 2 ^ e) := by ring
    have near := inside.near
    rw [split]
    refine (abs_add_three _ _ _).trans ?_
    linarith
  have whole := rounds
  obtain ⟨e', n, grid, nearest, rfl⟩ := rounds
  rcases le_or_gt e e' with coarse | fine
  · have small : w < 2 ^ (e + 1 + 53) := by
      have bits : (2 : ℚ) ^ (e + 53) = 2 ^ e * 2 ^ 53 := zpow_add₀ two_ne_zero e 53
      have bits' : (2 : ℚ) ^ (e + 1 + 53) = 2 ^ e * 2 * 2 ^ 53 := by
        rw [← zpow_add_one₀ two_ne_zero]
        exact zpow_add₀ two_ne_zero (e + 1) 53
      have below := inside.lt canonical
      have := (abs_le.1 steps).2
      linarith
    have least := canonical.least
    have last := whole.near (e := e + 1) (by omega) small
    rw [zpow_add_one₀ two_ne_zero] at last
    obtain ⟨k, rfl⟩ := Int.le.dest coarse
    refine abs_sub_le_three ((sum (c := 1) (by linarith)).trans_lt ?_)
    linarith
  · -- The double is on a finer grid, where the last rounding does less.
    have least := grid.least
    have small : w < 2 ^ (e - 1 + 53) :=
      grid.bits.trans_le (zpow_le_zpow_right₀ one_le_two (by omega))
    have last := whole.near (e := e - 1) (by omega) small
    have half : (2 : ℚ) ^ e = 2 ^ (e - 1) * 2 := by
      rw [← zpow_add_one₀ two_ne_zero, Int.sub_add_cancel]
    refine (sum (c := 1 / 4) (by linarith)).trans (le_of_eq ?_)
    ring

end Courier.Double
