import Courier.Json.Lexer
import Courier.Proofs.Double.Parts

/-!
# Operations on doubles are rounded once

An operation on doubles computes so many bits of the exact result, and remembers whether something
is left behind them, that the result is rounded as if it had been computed exactly.

## Main results

* `Double.rounds_roundWithAccuracy`: a number that is known up to its remaining bits is rounded.
* `Double.Shows.mul`, `Double.Shows.div`: products and quotients are rounded.
* `Double.holds_toFloat`, `Double.holds_powerOfTen`: natural numbers and powers of ten are rounded.
-/

namespace Courier.Double

open Float.Model (Format UnpackedFloat totalExponent)
open Float.Model.UnpackedFloat

/-! ### Shifts -/

/-- The least exponent that a number may have is that of its 53rd bit, or that of the smallest
double. -/
theorem targetExponent_eq (t : Int) :
    Format.binary64.targetExponent t = max (t - 53) (-1074) :=
  rfl

theorem two_zpow_log2_le {m : Nat} (nonzero : m ≠ 0) (e : Int) :
    (2 : ℚ) ^ (m.log2 + e) ≤ m * 2 ^ e := by
  rw [zpow_add₀ two_ne_zero, zpow_natCast]
  refine mul_le_mul_of_nonneg_right ?_ (zpow_nonneg zero_le_two e)
  exact_mod_cast Nat.log2_self_le nonzero

/-- A shift drops as many bits as the target exponent asks for. -/
theorem shiftToTargetExponent_of_eq {m k : Nat} {e : Int} {a : Accuracy}
    (target : max (m.log2 + e - 52) (-1074) - e = k) :
    shiftToTargetExponent Format.binary64 m e a =
      (ExtendedMantissa.ofMantissaAndAccuracy m a >>> k, e + k) := by
  have amount : (Format.binary64.targetExponent (totalExponent m e) - e).toNat = k := by
    rw [targetExponent_eq, totalExponent]
    omega
  unfold shiftToTargetExponent shiftToExponent
  simp only [amount]

theorem shiftToTargetExponent_of_bits {m : Nat} {e : Int} (bits : m < 2 ^ 53) (least : -1074 ≤ e) :
    shiftToTargetExponent Format.binary64 m e .exact = (⟨m, false, false⟩, e) := by
  have few : m.log2 ≤ 52 := by
    rcases Nat.eq_zero_or_pos m with rfl | pos
    · decide
    · exact Nat.le_of_lt_succ ((Nat.log2_lt (Nat.ne_of_gt pos)).2 bits)
  have amount : (Format.binary64.targetExponent (totalExponent m e) - e).toNat = 0 := by
    rw [targetExponent_eq, totalExponent]
    omega
  unfold shiftToTargetExponent shiftToExponent
  simp only [amount]
  exact congrArg (Prod.mk _) (Int.add_zero e)

/-- A significand that has been rounded is shifted once more. -/
theorem roundWithAccuracy_of_shifts (s : Sign) {m r n : Nat} {e e' e'' : Int} {a : Accuracy}
    {x : ExtendedMantissa}
    (first : shiftToTargetExponent Format.binary64 m e a = (x, e'))
    (rounded : x.roundedMantissa = r)
    (again : shiftToTargetExponent Format.binary64 r e' .exact = (⟨n, false, false⟩, e'')) :
    roundWithAccuracy Format.binary64 s m e a =
      if h : n = 0 then .zero s else .finite s n e'' (Nat.pos_of_ne_zero h) := by
  subst rounded
  unfold roundWithAccuracy
  rw [first]
  dsimp only
  rw [again]

/-- A point of a grid is shown as it is, or with the next exponent if it has a bit too many. -/
theorem shows_of_shift (s : Sign) {m r : Nat} {e e' : Int} {a : Accuracy} {x : ExtendedMantissa}
    (first : shiftToTargetExponent Format.binary64 m e a = (x, e'))
    (rounded : x.roundedMantissa = r)
    (least : -1074 ≤ e') (lead : e' = -1074 ∨ 2 ^ 52 ≤ r) (most : r ≤ 2 ^ 53) :
    Shows s (r * 2 ^ e') (roundWithAccuracy Format.binary64 s m e a) := by
  rcases Nat.lt_or_eq_of_le most with bits | rfl
  · rw [roundWithAccuracy_of_shifts s first rounded (shiftToTargetExponent_of_bits bits least)]
    by_cases none_ : r = 0
    · rw [dif_pos none_, none_, Nat.cast_zero, zero_mul]
      exact .zero
    · rw [dif_neg none_]
      exact .finite (Nat.pos_of_ne_zero none_) ⟨bits, least, lead⟩
  · have again : shiftToTargetExponent Format.binary64 (2 ^ 53) e' .exact =
        (⟨2 ^ 52, false, false⟩, e' + 1) := by
      have bits : (2 ^ 53).log2 = 53 := Nat.log2_two_pow
      rw [shiftToTargetExponent_of_eq (k := 1) (by omega)]
      rfl
    have value : ((2 ^ 53 : Nat) : ℚ) * 2 ^ e' = (2 ^ 52 : Nat) * 2 ^ (e' + 1) := by
      rw [zpow_add_one₀ two_ne_zero]
      push_cast
      ring
    rw [roundWithAccuracy_of_shifts s first rounded again, dif_neg (by decide), value]
    exact .finite _ ⟨by decide, by omega, .inr (Nat.le_refl _)⟩

theorem grid_of_located {v : ℚ} {m k : Nat} {e : Int} {a : Accuracy}
    (located : Located (v / 2 ^ e) (.ofMantissaAndAccuracy m a))
    (target : max (m.log2 + e - 52) (-1074) - e = k) : Grid v (e + k) := by
  have unit : (0 : ℚ) < 2 ^ e := zpow_pos two_pos e
  have same : (ExtendedMantissa.ofMantissaAndAccuracy m a).mantissa = m := by
    cases a with
    | exact => rfl
    | inexact o => cases o <;> rfl
  obtain ⟨low, high⟩ := located.floor
  rw [same] at low high
  rw [le_div_iff₀ unit] at low
  rw [div_lt_iff₀ unit] at high
  refine ⟨by omega, ?_, ?_⟩
  · have more : ((m + 1 : Nat) : ℚ) ≤ 2 ^ (m.log2 + 1) := by
      exact_mod_cast Nat.lt_log2_self
    push_cast at more
    calc v < (m + 1) * 2 ^ e := high
      _ ≤ 2 ^ (m.log2 + 1) * 2 ^ e := mul_le_mul_of_nonneg_right more unit.le
      _ = 2 ^ ((m.log2 + 1 : Nat) + e) := by rw [zpow_add₀ two_ne_zero, zpow_natCast]
      _ ≤ 2 ^ (e + k + 53) := zpow_le_zpow_right₀ one_le_two (by push_cast; omega)
  · rcases Nat.eq_zero_or_pos m with rfl | pos
    · have : (0 : Nat).log2 = 0 := by decide
      exact .inl (by omega)
    · by_cases least : e + k = -1074
      · exact .inl least
      · refine .inr (le_trans ?_ low)
        have lead := two_zpow_log2_le (Nat.ne_of_gt pos) e
        rwa [show e + k + 52 = m.log2 + e by omega]

/-- A number that is known up to its remaining bits is rounded to the nearest double. -/
theorem rounds_roundWithAccuracy (s : Sign) {v : ℚ} {m : Nat} {e : Int} {a : Accuracy}
    (located : Located (v / 2 ^ e) (.ofMantissaAndAccuracy m a))
    (fine : e ≤ max (m.log2 + e - 52) (-1074)) :
    ∃ u, Rounds v u ∧ Shows s u (roundWithAccuracy Format.binary64 s m e a) := by
  obtain ⟨k, target⟩ := Int.le.dest fine
  have amount : max (m.log2 + e - 52) (-1074) - e = k := by omega
  have grid := grid_of_located located amount
  have unit : (0 : ℚ) < 2 ^ (e + k) := zpow_pos two_pos _
  have nearest := (located.shiftRight k).nearest
  rw [div_div, ← zpow_natCast, ← zpow_add₀ two_ne_zero] at nearest
  refine ⟨_, ⟨e + k, _, grid, nearest, rfl⟩,
    shows_of_shift s (shiftToTargetExponent_of_eq amount) rfl grid.least ?_ ?_⟩
  · refine grid.lead.imp_right fun lead => nearest.le_of_ge ?_
    rw [le_div_iff₀ unit]
    rw [add_comm, zpow_add₀ two_ne_zero] at lead
    exact_mod_cast lead
  · refine nearest.le_of_le ?_
    have bits := grid.bits
    rw [add_comm, zpow_add₀ two_ne_zero] at bits
    rw [div_le_iff₀ unit]
    exact_mod_cast bits.le

/-! ### Products and quotients -/

/-- A product is rounded once. -/
theorem Shows.mul {s s' : Sign} {v w : ℚ} {r r' : UnpackedFloat} (h : Shows s v r)
    (h' : Shows s' w r') :
    ∃ u, Rounds (v * w) u ∧ Shows (s * s') u (.mul Format.binary64 r r') := by
  cases h with
  | zero =>
    rw [zero_mul]
    refine ⟨0, .zero, ?_⟩
    cases h' with
    | zero => exact .zero
    | finite pos canonical => exact .zero
  | @finite m e pos canonical =>
    cases h' with
    | zero =>
      rw [mul_zero]
      exact ⟨0, .zero, .zero⟩
    | @finite m' e' pos' canonical' =>
      have value : ((m * m' : Nat) : ℚ) * 2 ^ (e + e') = m * 2 ^ e * (m' * 2 ^ e') := by
        rw [zpow_add₀ two_ne_zero]
        push_cast
        ring
      have located : Located ((m : ℚ) * 2 ^ e * (m' * 2 ^ e') / 2 ^ (e + e'))
          (.ofMantissaAndAccuracy (m * m') .exact) := by
        rw [← value, mul_div_cancel_right₀ _ (zpow_ne_zero _ two_ne_zero)]
        exact .exact rfl
      refine rounds_roundWithAccuracy (s * s') located ?_
      -- Two numbers with few bits are below the grid of the smallest doubles.
      rcases canonical.lead with rfl | lead
      · rcases canonical'.lead with rfl | lead'
        · exact le_max_of_le_right (by decide)
        · have bits : 52 ≤ (m * m').log2 := (Nat.le_log2 (Nat.ne_of_gt (Nat.mul_pos pos pos'))).2
            (Nat.le_trans lead' (Nat.le_mul_of_pos_left _ pos))
          exact le_max_of_le_left (by omega)
      · have bits : 52 ≤ (m * m').log2 := (Nat.le_log2 (Nat.ne_of_gt (Nat.mul_pos pos pos'))).2
          (Nat.le_trans lead (Nat.le_mul_of_pos_right _ pos'))
        exact le_max_of_le_left (by omega)

theorem located_div {m n : Nat} (pos : 0 < n) : Located ((m : ℚ) / n)
    (.ofMantissaAndAccuracy (m / n) (accuracyOfFraction (m % n) n)) := by
  have divisor : (0 : ℚ) < n := Nat.cast_pos.2 pos
  have split : (m : ℚ) / n = (m / n : Nat) + (m % n : Nat) / n := by
    rw [eq_comm, ← mul_left_inj' divisor.ne', add_mul, div_mul_cancel₀ _ divisor.ne',
      div_mul_cancel₀ _ divisor.ne']
    exact_mod_cast Nat.div_add_mod' m n
  have small : ((m % n : Nat) : ℚ) / n < 1 := by
    rw [div_lt_one divisor]
    exact Nat.cast_lt.2 (Nat.mod_lt m pos)
  unfold accuracyOfFraction
  split
  · next none_ =>
    rw [split, none_, Nat.cast_zero, zero_div, add_zero]
    exact .exact rfl
  · next some_ =>
    have positive : (0 : ℚ) < (m % n : Nat) / n :=
      div_pos (Nat.cast_pos.2 (Nat.pos_of_ne_zero some_)) divisor
    rw [split]
    generalize half : compare (2 * (m % n)) n = o
    cases o with
    | lt =>
      have half : ((2 * (m % n) : Nat) : ℚ) < n := Nat.cast_lt.2 (Nat.compare_eq_lt.1 half)
      push_cast at half
      have below : ((m % n : Nat) : ℚ) / n < 1 / 2 := by
        rw [div_lt_div_iff₀ divisor two_pos]
        linarith
      exact .below (by linarith) (by linarith)
    | eq =>
      have half : ((2 * (m % n) : Nat) : ℚ) = n := congrArg _ (Nat.compare_eq_eq.1 half)
      push_cast at half
      have middle : ((m % n : Nat) : ℚ) / n = 1 / 2 := by
        rw [div_eq_div_iff divisor.ne' two_ne_zero]
        linarith
      exact .middle (by rw [middle])
    | gt =>
      have half : (n : ℚ) < (2 * (m % n) : Nat) := Nat.cast_lt.2 (Nat.compare_eq_gt.1 half)
      push_cast at half
      have above : 1 / 2 < ((m % n : Nat) : ℚ) / n := by
        rw [div_lt_div_iff₀ two_pos divisor]
        linarith
      exact .above (by linarith) (by linarith)

theorem le_log2_div {m n k : Nat} (pos : 0 < m) (pos' : 0 < n)
    (shifted : n.log2 + 53 ≤ m.log2 + k) :
    52 ≤ ((m <<< k) / n).log2 := by
  have lead : 2 ^ (m.log2 + k) ≤ m <<< k := by
    rw [Nat.shiftLeft_eq, Nat.pow_add]
    exact Nat.mul_le_mul_right _ (Nat.log2_self_le (Nat.ne_of_gt pos))
  have quotient : 2 ^ 52 ≤ (m <<< k) / n := by
    refine (Nat.le_div_iff_mul_le pos').2 (Nat.le_trans ?_ lead)
    calc 2 ^ 52 * n ≤ 2 ^ 52 * 2 ^ (n.log2 + 1) :=
          Nat.mul_le_mul_left _ (Nat.le_of_lt Nat.lt_log2_self)
      _ = 2 ^ (n.log2 + 53) := by rw [← Nat.pow_add]; congr 1; omega
      _ ≤ 2 ^ (m.log2 + k) := Nat.pow_le_pow_right (by decide) shifted
  exact (Nat.le_log2 (by omega)).2 quotient

/-- A quotient is rounded once. -/
theorem Shows.div {s s' : Sign} {v w : ℚ} {r r' : UnpackedFloat} (h : Shows s v r)
    (h' : Shows s' w r') (divisor : 0 < w) :
    ∃ u, Rounds (v / w) u ∧ Shows (s / s') u (.div Format.binary64 r r') := by
  cases h' with
  | zero => exact absurd divisor (lt_irrefl 0)
  | @finite n e' pos' canonical' =>
    cases h with
    | zero =>
      rw [zero_div]
      exact ⟨0, .zero, .zero⟩
    | @finite m e pos canonical =>
      generalize level : min (e - e')
        (Format.binary64.targetExponent (totalExponent m e - totalExponent n e')) = l
      generalize amount : (e - e' - l).toNat = k
      have exponent : e - e' = k + l := by omega
      have quotient : UnpackedFloat.div Format.binary64 (.finite s m e pos) (.finite s' n e' pos') =
          roundWithAccuracy Format.binary64 (s / s') ((m <<< k) / n) l
            (accuracyOfFraction ((m <<< k) % n) n) := by
        subst level amount
        rfl
      have value : (m : ℚ) * 2 ^ e / (n * 2 ^ e') / 2 ^ l = (m <<< k : Nat) / n := by
        have scale : (2 : ℚ) ^ e = 2 ^ k * 2 ^ l * 2 ^ e' := by
          rw [← zpow_natCast, ← zpow_add₀ two_ne_zero, ← zpow_add₀ two_ne_zero]
          congr 1
          omega
        have nonzero (i : Int) : (2 : ℚ) ^ i ≠ 0 := zpow_ne_zero i two_ne_zero
        have := nonzero l
        have := nonzero e'
        rw [scale, Nat.shiftLeft_eq]
        push_cast
        field_simp
      rw [quotient]
      refine rounds_roundWithAccuracy (s / s') (value ▸ located_div pos') ?_
      rw [targetExponent_eq, totalExponent, totalExponent] at level
      by_cases small : l ≤ -1074
      · exact le_max_of_le_right small
      · have bits := le_log2_div (k := k) pos pos' (by omega)
        exact le_max_of_le_left (by omega)

/-! ### Finite results -/

/-- The least number that is rounded to infinity: half a unit in the last place above the largest
double. -/
@[irreducible] def limit : Nat :=
  (2 ^ 54 - 1) * 2 ^ 970

theorem limit_eq : (limit : ℚ) = (2 ^ 53 - 1 / 2) * 2 ^ (971 : Int) := by
  have whole : limit = (2 ^ 54 - 1) * 2 ^ 970 := by with_unfolding_all rfl
  have unit : (2 : ℚ) ^ (971 : Int) = 2 ^ 970 * 2 := zpow_add_one₀ two_ne_zero 970
  rw [whole, unit, Nat.cast_mul, Nat.cast_pow, Nat.cast_ofNat]
  generalize (2 : ℚ) ^ 970 = p
  push_cast
  ring

/-- A number below the limit is not rounded out of the range of doubles. -/
theorem Rounds.lt_of_lt_limit {v u : ℚ} (h : Rounds v u) (small : v < limit) :
    u < 2 ^ (1024 : Int) := by
  obtain ⟨e, n, grid, nearest, rfl⟩ := h
  have unit : (0 : ℚ) < 2 ^ e := zpow_pos two_pos e
  have range : e ≤ 971 := by
    refine grid.le_of_lt (by decide) (small.trans ?_)
    rw [limit_eq, zpow_add₀ two_ne_zero, mul_comm]
    refine mul_lt_mul_of_pos_left ?_ (zpow_pos two_pos _)
    norm_num
  rcases Int.lt_or_eq_of_le range with below | rfl
  · have bits : n ≤ 2 ^ 53 := by
      refine nearest.le_of_le ?_
      have bits := grid.bits
      rw [add_comm, zpow_add₀ two_ne_zero] at bits
      rw [div_le_iff₀ unit]
      exact_mod_cast bits.le
    have bits : (n : ℚ) ≤ 2 ^ (53 : Int) := by exact_mod_cast bits
    calc (n : ℚ) * 2 ^ e ≤ 2 ^ (53 : Int) * 2 ^ e := mul_le_mul_of_nonneg_right bits unit.le
      _ = 2 ^ (53 + e) := (zpow_add₀ two_ne_zero _ _).symm
      _ < 2 ^ (1024 : Int) := zpow_lt_zpow_right₀ one_lt_two (by omega)
  · rw [limit_eq, ← div_lt_iff₀ unit] at small
    have low := nearest.low
    have bits : (n : ℚ) < 2 ^ 53 := by linarith
    exact zpow_add_le (by exact_mod_cast bits) (Int.le_refl _)

theorem Shows.holds {s : Sign} {v : ℚ} {r : UnpackedFloat}
    (result : ∃ u, Rounds v u ∧ Shows s u r) (small : v < limit) :
    ∃ u, Rounds v u ∧ Holds s (.ofModel (.pack r)) u := by
  obtain ⟨u, rounds, shows⟩ := result
  exact ⟨u, rounds, r, shows, rounds.lt_of_lt_limit small, rfl⟩

namespace Holds

variable {s s' : Sign} {x y : Float} {v w : ℚ}

theorem isInf_eq_false (h : Holds s x v) : x.isInf = false := by
  have shows := h.shows
  rw [Float.isInf, Float.Model.isInf]
  generalize x.toModel.unpack = r at shows
  cases shows <;> rfl

/-- A product below the limit is a double. -/
theorem mul (hx : Holds s x v) (hy : Holds s' y w) (small : v * w < limit) :
    ∃ u, Rounds (v * w) u ∧ Holds (s * s') (x * y) u :=
  Shows.holds (hx.shows.mul hy.shows) small

/-- A quotient below the limit is a double. -/
theorem div (hx : Holds s x v) (hy : Holds s' y w) (pos : 0 < w) (small : v / w < limit) :
    ∃ u, Rounds (v / w) u ∧ Holds (s / s') (x / y) u :=
  Shows.holds (hx.shows.div hy.shows pos) small

/-- A product that is not infinite is a double. -/
theorem mul_of_isInf (hx : Holds s x v) (hy : Holds s' y w) (bounded : (x * y).isInf = false) :
    ∃ u, Rounds (v * w) u ∧ Holds (s * s') (x * y) u := by
  obtain ⟨u, rounds, shows⟩ := hx.shows.mul hy.shows
  exact ⟨u, rounds, _, shows, shows.lt_of_isInf bounded, rfl⟩

end Holds

/-! ### Natural numbers and powers of ten -/

theorem log2_shiftLeft {n : Nat} (nonzero : n ≠ 0) (k : Nat) : (n <<< k).log2 = n.log2 + k := by
  induction k with
  | zero => rfl
  | succ k ih =>
    rw [Nat.shiftLeft_succ, Nat.log2_two_mul (by simpa [Nat.shiftLeft_eq] using nonzero), ih]
    rfl

theorem toFloat_eq {n : Nat} (pos : 0 < n) (fits : n < 2 ^ 64) :
    (UInt64.ofNat n).toFloat = .ofModel (.pack (roundWithAccuracy Format.binary64 .positive
      (n <<< (52 - n.log2)) (-(52 - n.log2 : Nat)) .exact)) := by
  have same : (UInt64.ofNat n).toNat = n := UInt64.toNat_ofNat_of_lt' fits
  have sign : compare (n : Int) 0 = .gt := Int.compare_eq_gt.2 (by omega)
  have target : Format.binary64.targetExponent (totalExponent n 0) = n.log2 - 52 := by
    rw [targetExponent_eq, totalExponent]
    omega
  change Float.ofModel (.pack
    (UnpackedFloat.normalize Format.binary64 ((UInt64.ofNat n).toNat : Int) 0 _)) = _
  simp only [same, UnpackedFloat.normalize, sign, Int.toNat_natCast, UnpackedFloat.round, target,
    decreaseExponent, Int.zero_sub, show (-((n.log2 : Int) - 52)).toNat = 52 - n.log2 by omega]

open Json (powerOfTen)

theorem powerOfTen_eq_of_lt {n : Nat} (large : 22 < n) (most : n ≤ 308) :
    powerOfTen n = .ofModel (.pack (roundWithAccuracy Format.binary64 .positive
      ((1 <<< 53) * 10 ^ n) (-53) .exact)) := by
  have inexact : ¬ (1 < 2 ^ 53 ∧ n ≤ 22) := by omega
  have few : ¬ (Int.ofNat n > 2 ^ 11) := by
    change ¬ (2 ^ 11 < (n : Int))
    omega
  have many : ¬ (Int.ofNat n < -((2 ^ 11 : Int) + (1 : Nat).log2)) := by
    change ¬ ((n : Int) < -((2 ^ 11 : Int) + (0 : Nat)))
    omega
  have product : UnpackedFloat.ofScientific Format.binary64 1 (Int.ofNat n) = _ :=
    (dif_neg Nat.one_ne_zero).trans
      ((if_neg few).trans ((if_neg many).trans (if_pos (Int.natCast_nonneg n))))
  rw [powerOfTen, Float.ofScientific, dif_neg inexact]
  exact congrArg (fun x => Float.ofModel (.pack x)) product

theorem powerOfTen_eq {n : Nat} (most : n ≤ 308) :
    powerOfTen n = .ofModel (.pack (roundWithAccuracy Format.binary64 .positive
      ((1 <<< 53) * 10 ^ n) (-53) .exact)) := by
  by_cases large : 22 < n
  · exact powerOfTen_eq_of_lt large most
  · have table : ∀ k < 23, powerOfTen k = .ofModel (.pack (roundWithAccuracy Format.binary64
        .positive ((1 <<< 53) * 10 ^ k) (-53) .exact)) := by decide +kernel
    exact table n (by omega)

/-- A natural number of 64 bits is rounded. -/
theorem holds_toFloat {n : Nat} (fits : n < 2 ^ 64) :
    ∃ u, Rounds n u ∧ Holds .positive (UInt64.ofNat n).toFloat u := by
  rcases Nat.eq_zero_or_pos n with rfl | pos
  · exact ⟨0, by exact_mod_cast Rounds.zero, .zero .positive, .zero, zpow_pos two_pos _, rfl⟩
  have nonzero : n ≠ 0 := Nat.ne_of_gt pos
  have lead := log2_shiftLeft nonzero (52 - n.log2)
  have value : (n : ℚ) / 2 ^ (-(52 - n.log2 : Nat) : Int) = (n <<< (52 - n.log2) : Nat) := by
    rw [zpow_neg, zpow_natCast, div_inv_eq_mul, Nat.shiftLeft_eq]
    push_cast
    rfl
  have located : Located ((n : ℚ) / 2 ^ (-(52 - n.log2 : Nat) : Int))
      (.ofMantissaAndAccuracy (n <<< (52 - n.log2)) .exact) := .exact value
  have below : (n : ℚ) < limit := by
    have range : 2 ^ 64 ≤ limit := by decide +kernel
    exact Nat.cast_lt.2 (Nat.lt_of_lt_of_le fits range)
  rw [toFloat_eq pos fits]
  have rounded := rounds_roundWithAccuracy .positive located (le_max_of_le_left (by omega))
  exact Shows.holds rounded below

/-- A power of ten is rounded. -/
theorem holds_powerOfTen {n : Nat} (most : n ≤ 308) :
    ∃ u, Rounds (10 ^ n : Nat) u ∧ Holds .positive (powerOfTen n) u := by
  have nonzero : (1 <<< 53) * 10 ^ n ≠ 0 :=
    Nat.ne_of_gt (Nat.mul_pos (by decide) (Nat.pow_pos (by decide)))
  have bits : 53 ≤ ((1 <<< 53) * 10 ^ n).log2 :=
    (Nat.le_log2 nonzero).2 (Nat.le_mul_of_pos_right _ (Nat.pow_pos (by decide)))
  have value : ((10 ^ n : Nat) : ℚ) / 2 ^ (-53 : Int) = ((1 <<< 53) * 10 ^ n : Nat) := by
    rw [zpow_neg, div_inv_eq_mul, Nat.cast_mul, mul_comm]
    rfl
  have located : Located (((10 ^ n : Nat) : ℚ) / 2 ^ (-53 : Int))
      (.ofMantissaAndAccuracy ((1 <<< 53) * 10 ^ n) .exact) := .exact value
  have below : ((10 ^ n : Nat) : ℚ) < limit := by
    have grows (k : Nat) (further : n ≤ k) : 10 ^ n ≤ 10 ^ k :=
      Nat.pow_le_pow_right (by decide) further
    have range : 10 ^ 308 < limit := by decide +kernel
    exact Nat.cast_lt.2 (Nat.lt_of_le_of_lt (grows 308 most) range)
  rw [powerOfTen_eq most]
  have rounded := rounds_roundWithAccuracy .positive located (le_max_of_le_left (by omega))
  exact Shows.holds rounded below

end Courier.Double
