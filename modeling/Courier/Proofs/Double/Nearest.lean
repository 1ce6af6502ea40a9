import Mathlib.Algebra.Order.Field.Power
import Mathlib.Algebra.Ring.Parity
import Mathlib.Data.Rat.Cast.Order
import Mathlib.Tactic.FieldSimp
import Mathlib.Tactic.Linarith
import Mathlib.Tactic.Positivity
import Mathlib.Tactic.Ring

/-!
# The nearest double

A positive number has a grid: the multiples of a power of two among which the doubles next to the
number are. The grid has 53 bits for the number, unless the number is smaller than the smallest
double with 53 bits. The number is rounded to the nearest point of its grid, and to the even one
if it is in the middle between two points.

## Main definitions

* `Double.Located`: where a number lies between two whole numbers, as the remaining bits tell.
* `Double.Nearest`: a whole number that is nearest to a number, the even one of two.
* `Double.Grid`: the exponent of the grid of a number.
* `Double.Rounds`: what a number is rounded to.

## Main results

* `Double.Located.shiftRight`, `Double.Located.nearest`: the remaining bits suffice for rounding,
  however many bits are dropped.
* `Double.Rounds.unique`: a number is rounded to one number only.
* `Double.Rounds.eq_of_bits`: a number with 53 bits is kept.
* `Double.Rounds.near`, `Double.Rounds.relative`: other numbers move by half a unit at most.
-/

namespace Courier.Double

open Float.Model.UnpackedFloat

/-! ### Remaining bits -/

/-- Where the number `t` lies between the significand and the next one, as the two bits behind the
significand tell. -/
inductive Located (t : ℚ) : ExtendedMantissa → Prop where
  | exact {m : Nat} (here : t = m) : Located t ⟨m, false, false⟩
  | below {m : Nat} (low : m < t) (high : t < m + 1 / 2) : Located t ⟨m, false, true⟩
  | middle {m : Nat} (here : t = m + 1 / 2) : Located t ⟨m, true, false⟩
  | above {m : Nat} (low : m + 1 / 2 < t) (high : t < m + 1) : Located t ⟨m, true, true⟩

namespace Located

variable {t : ℚ} {x : ExtendedMantissa}

theorem floor (h : Located t x) : x.mantissa ≤ t ∧ t < x.mantissa + 1 := by
  cases h with
  | exact here | middle here => constructor <;> linarith
  | below low high | above low high => constructor <;> linarith

/-- What is left of an even significand is above it unless nothing is left. -/
theorem shiftRightOne (h : Located t x) : Located (t / 2) x.shiftRightOne := by
  obtain ⟨m, up, sticky⟩ := x
  obtain ⟨k, rfl | rfl⟩ := Nat.even_or_odd' m
  · have half : (⟨2 * k, up, sticky⟩ : ExtendedMantissa).shiftRightOne =
        ⟨k, false, up || sticky⟩ := by
      simp [ExtendedMantissa.shiftRightOne]
    have double : ((2 * k : Nat) : ℚ) = 2 * k := by push_cast; rfl
    rw [half]
    cases h with
    | exact here => exact .exact (by linarith)
    | below low high => exact .below (by linarith) (by linarith)
    | middle here => exact .below (by linarith) (by linarith)
    | above low high => exact .below (by linarith) (by linarith)
  · have half : (⟨2 * k + 1, up, sticky⟩ : ExtendedMantissa).shiftRightOne =
        ⟨k, true, up || sticky⟩ := by
      simp [ExtendedMantissa.shiftRightOne]
      omega
    have double : ((2 * k + 1 : Nat) : ℚ) = 2 * k + 1 := by push_cast; rfl
    rw [half]
    cases h with
    | exact here => exact .middle (by linarith)
    | below low high => exact .above (by linarith) (by linarith)
    | middle here => exact .above (by linarith) (by linarith)
    | above low high => exact .above (by linarith) (by linarith)

/-- The remaining bits tell where a number lies after any number of bits has been dropped. -/
theorem shiftRight (h : Located t x) (k : Nat) : Located (t / 2 ^ k) (x >>> k) := by
  induction k with
  | zero =>
    rw [pow_zero, div_one]
    exact h
  | succ k ih =>
    rw [pow_succ, ← div_div]
    exact ih.shiftRightOne

end Located

/-! ### Nearest whole numbers -/

/-- The whole number `n` is nearest to `t`, and even if there is another one. -/
structure Nearest (t : ℚ) (n : Nat) : Prop where
  low : n - 1 / 2 ≤ t
  high : t ≤ n + 1 / 2
  even : t = n - 1 / 2 ∨ t = n + 1 / 2 → Even n

namespace Nearest

variable {t : ℚ} {n k : Nat}

theorem self (n : Nat) : Nearest n n where
  low := by linarith
  high := by linarith
  even tie := by rcases tie with tie | tie <;> linarith

/-- There is only one nearest whole number. -/
theorem unique (h : Nearest t n) (h' : Nearest t k) : n = k := by
  -- Neighbours with the number in their middle are not both even.
  have apart {i j : Nat} (hi : Nearest t i) (hj : Nearest t j) : ¬ i < j := by
    intro less
    have next : ((i + 1 : Nat) : ℚ) ≤ j := Nat.cast_le.2 less
    push_cast at next
    have := hi.high
    have := hj.low
    have tie : t = i + 1 / 2 := by linarith
    have tie' : t = j - 1 / 2 := by linarith
    have even := hi.even (.inr tie)
    have even' := hj.even (.inl tie')
    have succ : j = i + 1 := by
      have : (j : ℚ) = (i + 1 : Nat) := by push_cast; linarith
      exact Nat.cast_injective this
    rw [succ, Nat.even_add_one] at even'
    exact even' even
  exact Nat.le_antisymm (Nat.not_lt.1 (apart h' h)) (Nat.not_lt.1 (apart h h'))

/-- A nearest whole number does not pass a whole number. -/
theorem le_of_le (h : Nearest t n) (le : t ≤ k) : n ≤ k := by
  by_contra more
  have next : ((k + 1 : Nat) : ℚ) ≤ n := Nat.cast_le.2 (Nat.not_le.1 more)
  push_cast at next
  have := h.low
  linarith

theorem le_of_ge (h : Nearest t n) (ge : k ≤ t) : k ≤ n := by
  by_contra less
  have next : ((n + 1 : Nat) : ℚ) ≤ k := Nat.cast_le.2 (Nat.not_le.1 less)
  push_cast at next
  have := h.high
  linarith

theorem of_lt (low : n - 1 / 2 < t) (high : t < n + 1 / 2) : Nearest t n where
  low := low.le
  high := high.le
  even tie := by rcases tie with tie | tie <;> linarith

theorem abs_sub_le (h : Nearest t n) : |n - t| ≤ 1 / 2 :=
  abs_le.2 ⟨by linarith [h.high], by linarith [h.low]⟩

end Nearest

/-- The remaining bits suffice to find the nearest whole number. -/
theorem Located.nearest {t : ℚ} {x : ExtendedMantissa} (h : Located t x) :
    Nearest t x.roundedMantissa := by
  cases h with
  | @exact m here => exact here ▸ Nearest.self m
  | @below m low high => exact .of_lt (by change (m : ℚ) - _ < _; linarith) high
  | @middle m here =>
    change Nearest t (m + m % 2)
    rcases Nat.mod_two_eq_zero_or_one m with even | odd
    · rw [even, Nat.add_zero]
      exact ⟨by linarith, here.le, fun _ => Nat.even_iff.2 even⟩
    · rw [odd]
      refine ⟨?_, ?_, fun _ => (Nat.odd_iff.2 odd).add_one⟩ <;> push_cast <;> linarith
  | @above m low high =>
    change Nearest t (m + 1)
    refine .of_lt ?_ ?_ <;> push_cast <;> linarith

/-! ### Grids -/

/-- The number `v` has a grid with the spacing `2 ^ e`: there are at most 53 bits for it, and not
fewer unless the spacing is that of the smallest doubles. -/
structure Grid (v : ℚ) (e : Int) : Prop where
  least : -1074 ≤ e
  bits : v < 2 ^ (e + 53)
  lead : e = -1074 ∨ 2 ^ (e + 52) ≤ v

namespace Grid

variable {v : ℚ} {e e' : Int}

theorem le_of_lt (h : Grid v e) (least : -1074 ≤ e') (bits : v < 2 ^ (e' + 53)) : e ≤ e' := by
  rcases h.lead with rfl | lead
  · exact least
  · have := (zpow_lt_zpow_iff_right₀ one_lt_two).1 (lead.trans_lt bits)
    omega

theorem unique (h : Grid v e) (h' : Grid v e') : e = e' :=
  Int.le_antisymm (h.le_of_lt h'.least h'.bits) (h'.le_of_lt h.least h.bits)

end Grid

/-! ### Rounding -/

/-- The number `v` is rounded to `u`. -/
def Rounds (v u : ℚ) : Prop :=
  ∃ e n, Grid v e ∧ Nearest (v / 2 ^ e) n ∧ u = n * 2 ^ e

namespace Rounds

variable {v u u' : ℚ} {e : Int}

theorem zero : Rounds 0 0 := by
  refine ⟨-1074, 0, ⟨Int.le_refl _, zpow_pos two_pos _, .inl rfl⟩, ?_, ?_⟩
  · rw [zero_div]
    exact_mod_cast Nearest.self 0
  · rw [Nat.cast_zero, zero_mul]

theorem unique (h : Rounds v u) (h' : Rounds v u') : u = u' := by
  obtain ⟨e, n, grid, nearest, rfl⟩ := h
  obtain ⟨e', n', grid', nearest', rfl⟩ := h'
  obtain rfl := grid.unique grid'
  rw [nearest.unique nearest']

/-- A number with 53 bits is on its grid. -/
theorem eq_of_bits {m : Nat} (bits : m < 2 ^ 53) (least : -1074 ≤ e) (h : Rounds (m * 2 ^ e) u) :
    u = m * 2 ^ e := by
  obtain ⟨e', n, grid, nearest, rfl⟩ := h
  have fits : (m : ℚ) * 2 ^ e < 2 ^ (e + 53) := by
    rw [add_comm, zpow_add₀ two_ne_zero]
    refine mul_lt_mul_of_pos_right ?_ (zpow_pos two_pos e)
    exact_mod_cast bits
  obtain ⟨k, rfl⟩ := Int.le.dest (grid.le_of_lt least fits)
  have scaled : (m : ℚ) * 2 ^ (e' + k) = (m * 2 ^ k : Nat) * 2 ^ e' := by
    rw [zpow_add₀ two_ne_zero, zpow_natCast]
    push_cast
    ring
  rw [scaled, mul_div_cancel_right₀ _ (zpow_ne_zero e' two_ne_zero)] at nearest
  rw [scaled, nearest.unique (.self _)]

/-- A number moves by half a unit of its grid at most. -/
theorem near (h : Rounds v u) (least : -1074 ≤ e) (bits : v < 2 ^ (e + 53)) :
    |u - v| ≤ 2 ^ e / 2 := by
  obtain ⟨e', n, grid, nearest, rfl⟩ := h
  have unit : (0 : ℚ) < 2 ^ e' := zpow_pos two_pos e'
  have finer : (2 : ℚ) ^ e' ≤ 2 ^ e := zpow_le_zpow_right₀ one_le_two (grid.le_of_lt least bits)
  have scaled : n * 2 ^ e' - v = (n - v / 2 ^ e') * 2 ^ e' := by
    field_simp
  rw [scaled, abs_mul, abs_of_pos unit]
  have := mul_le_mul_of_nonneg_right nearest.abs_sub_le unit.le
  linarith

/-- Unless a number is very small it moves by a small part of it. -/
theorem relative (h : Rounds v u) (large : 2 ^ (-1022 : Int) ≤ v) : |u - v| ≤ v / 2 ^ 53 := by
  have whole := h
  obtain ⟨e, n, grid, nearest, -⟩ := h
  have lead : (2 : ℚ) ^ (e + 52) ≤ v := by
    rcases grid.lead with rfl | lead
    · exact large
    · exact lead
  have unit : (2 : ℚ) ^ (e + 52) = 2 ^ e * 2 ^ 52 := zpow_add₀ two_ne_zero e 52
  have := whole.near grid.least grid.bits
  linarith

theorem eq_of_close {n m k : Nat} (h : Rounds n u) (lead : 2 ^ (k + 52) ≤ n)
    (bits : n < 2 ^ (k + 53)) (low : 2 * m * 2 ^ k < 2 * n + 2 ^ k)
    (high : 2 * n < 2 * m * 2 ^ k + 2 ^ k) : u = (m * 2 ^ k : Nat) := by
  have unit : (0 : ℚ) < 2 ^ k := pow_pos two_pos k
  have power (i : Nat) (j : Int) (same : (i : Int) = j) :
      (2 : ℚ) ^ (k + j) = (2 ^ (k + i) : Nat) := by
    rw [← same, ← Nat.cast_add, zpow_natCast, Nat.cast_pow, Nat.cast_ofNat]
  have grid : Grid n k := by
    refine ⟨by omega, ?_, .inr ?_⟩
    · rw [power 53 53 rfl]
      exact Nat.cast_lt.2 bits
    · rw [power 52 52 rfl]
      exact Nat.cast_le.2 lead
  have low : (2 : ℚ) * m * 2 ^ k < 2 * n + 2 ^ k := by exact_mod_cast low
  have high : (2 : ℚ) * n < 2 * m * 2 ^ k + 2 ^ k := by exact_mod_cast high
  have nearest : Nearest ((n : ℚ) / 2 ^ (k : Int)) m := by
    rw [zpow_natCast]
    refine .of_lt ?_ ?_
    · rw [lt_div_iff₀ unit]
      linarith
    · rw [div_lt_iff₀ unit]
      linarith
  refine h.unique ⟨k, m, grid, nearest, ?_⟩
  push_cast
  rw [zpow_natCast]

end Rounds

end Courier.Double
