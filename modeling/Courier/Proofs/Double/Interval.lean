import Courier.Proofs.Double.Parts

/-!
# The interval of a double

The interval of a double is the set of the numbers that are rounded to it. It reaches half a unit
to either side, or a quarter down from a power of two, where the doubles below are closer. So a
decimal in the interval of a double is rounded to the double, and is close to it.

## Main definitions

* `Double.InInterval`: a number is in the interval of a double.
* `Double.written`: the number that the shortest digits of a double make up.

## Main results

* `Double.InInterval.near`: a number in the interval of a double is at most half a unit away.
* `Double.InInterval.rounds`: it is rounded to the double.
* `Double.rounds_written`: so is the number that is written for a double.
-/

namespace Courier.Double

theorem zpow_eq_div {b : ℚ} (nonzero : b ≠ 0) (k : Int) : b ^ k = b ^ k.toNat / b ^ (-k).toNat := by
  rw [← zpow_natCast, ← zpow_natCast, ← zpow_sub₀ nonzero]
  congr 1
  omega

/-- A decimal in an interval is between its ends, and at an end only if the ends belong to it. -/
theorem between_of_contains {r : Rounding} {d : Nat} {k : Int} (positive : 0 < r.den)
    (inside : r.contains d k = true) :
    ((r.low : ℚ) / r.den ≤ d * 10 ^ k ∧ (d : ℚ) * 10 ^ k ≤ r.high / r.den) ∧
      (r.closed = true ∨
        ((r.low : ℚ) / r.den < d * 10 ^ k ∧ (d : ℚ) * 10 ^ k < r.high / r.den)) := by
  have den : (0 : ℚ) < r.den := Nat.cast_pos.2 positive
  have scale : (0 : ℚ) < (10 ^ (-k).toNat : Nat) := Nat.cast_pos.2 (Nat.pow_pos (by decide))
  have value : (d : ℚ) * 10 ^ k * r.den =
      (d * 10 ^ k.toNat * r.den : Nat) / (10 ^ (-k).toNat : Nat) := by
    rw [zpow_eq_div (by norm_num : (10 : ℚ) ≠ 0)]
    push_cast
    ring
  have above (n : Nat) : (n : ℚ) / r.den ≤ d * 10 ^ k ↔
      n * 10 ^ (-k).toNat ≤ d * 10 ^ k.toNat * r.den := by
    rw [div_le_iff₀ den, value, le_div_iff₀ scale]
    exact_mod_cast Iff.rfl
  have below (n : Nat) : (d : ℚ) * 10 ^ k ≤ n / r.den ↔
      d * 10 ^ k.toNat * r.den ≤ n * 10 ^ (-k).toNat := by
    rw [le_div_iff₀ den, value, div_le_iff₀ scale]
    exact_mod_cast Iff.rfl
  rw [lt_iff_not_ge, lt_iff_not_ge, above, above, below, below, Nat.not_le, Nat.not_le]
  unfold Rounding.contains at inside
  simp only at inside
  split at inside
  · next closed => exact ⟨of_decide_eq_true inside, .inl closed⟩
  · have strict := of_decide_eq_true inside
    exact ⟨⟨Nat.le_of_lt strict.1, Nat.le_of_lt strict.2⟩, .inr strict⟩

/-- How far the interval of a double reaches down, in quarters of a unit. -/
def below (s : Nat) (e : Int) : Nat :=
  if s = 2 ^ 52 ∧ -1074 < e then 1 else 2

theorem end_div_den (n : Nat) (e : Int) :
    ((n * 2 ^ (e - 2).toNat : Nat) : ℚ) / (2 ^ (2 - e).toNat : Nat) = n / 4 * 2 ^ e := by
  have split : (2 : ℚ) ^ e = 2 ^ (e - 2).toNat / 2 ^ (2 - e).toNat * 4 := by
    rw [← Int.neg_sub e 2, ← zpow_eq_div two_ne_zero, zpow_sub₀ two_ne_zero]
    norm_num
  rw [split]
  push_cast
  ring

section Interval

variable {s d : Nat} {e k : Int}

/-- The number is in the interval of the double with the significand `s` and the exponent `e`. -/
structure InInterval (v : ℚ) (s : Nat) (e : Int) : Prop where
  low : (s - below s e / 4) * 2 ^ e ≤ v
  high : v ≤ (s + 1 / 2) * 2 ^ e
  even : (v = (s - below s e / 4) * 2 ^ e ∨ v = (s + 1 / 2) * 2 ^ e) → Even s

theorem inInterval_of_contains (pos : 0 < s)
    (inside : (Rounding.ofBinary s e).contains d k = true) : InInterval (d * 10 ^ k) s e := by
  have between := between_of_contains (Nat.two_pow_pos _) inside
  have few : below s e ≤ 4 * s := by
    unfold below
    split <;> omega
  have lowEnd : ((Rounding.ofBinary s e).low : ℚ) / (Rounding.ofBinary s e).den =
      (s - below s e / 4) * 2 ^ e := by
    refine (end_div_den (4 * s - below s e) e).trans ?_
    rw [Nat.cast_sub few]
    push_cast
    ring
  have highEnd : ((Rounding.ofBinary s e).high : ℚ) / (Rounding.ofBinary s e).den =
      (s + 1 / 2) * 2 ^ e := by
    refine (end_div_den (4 * s + 2) e).trans ?_
    push_cast
    ring
  rw [lowEnd, highEnd] at between
  obtain ⟨⟨low, high⟩, ends⟩ := between
  refine ⟨low, high, fun atEnd => ?_⟩
  rcases ends with closed | ⟨low', high'⟩
  · exact Nat.even_iff.2 (of_decide_eq_true closed)
  · rcases atEnd with atEnd | atEnd
    · exact absurd atEnd.symm low'.ne
    · exact absurd atEnd high'.ne

namespace InInterval

variable {v : ℚ}

theorem below_le (s : Nat) (e : Int) : (below s e : ℚ) ≤ 2 := by
  unfold below
  split <;> norm_num

/-- A number in the interval of a double is at most half a unit away from the double. -/
theorem near (h : InInterval v s e) : |v - s * 2 ^ e| ≤ 2 ^ e / 2 := by
  have unit : (0 : ℚ) < 2 ^ e := zpow_pos two_pos e
  have reach := mul_le_mul_of_nonneg_right (below_le s e) unit.le
  have low := h.low
  have high := h.high
  rw [sub_mul] at low
  rw [add_mul] at high
  exact abs_le.2 ⟨by linarith, by linarith⟩

theorem lt (h : InInterval v s e) (canonical : Canonical s e) : v < 2 ^ (e + 53) := by
  have unit : (0 : ℚ) < 2 ^ e := zpow_pos two_pos e
  have bits : (s : ℚ) + 1 / 2 < 2 ^ (53 : Int) := by
    have bits : ((s + 1 : Nat) : ℚ) ≤ (2 ^ 53 : Nat) := Nat.cast_le.2 canonical.bits
    push_cast at bits
    rw [zpow_ofNat]
    linarith
  rw [add_comm, zpow_add₀ two_ne_zero]
  exact h.high.trans_lt (mul_lt_mul_of_pos_right bits unit)

theorem least (h : InInterval v s e) (pos : 0 < s) (canonical : Canonical s e) :
    2 ^ (-1075 : Int) ≤ v := by
  have reach := below_le s e
  have one : (1 : ℚ) ≤ s := Nat.one_le_cast.2 pos
  have least : (2 : ℚ) ^ (-1074 : Int) ≤ 2 ^ e := zpow_le_zpow_right₀ one_le_two canonical.least
  have half : (2 : ℚ) ^ (-1074 : Int) = 2 ^ (-1075 : Int) * 2 :=
    zpow_add_one₀ two_ne_zero (-1075)
  have low := (mul_le_mul_of_nonneg_right (by linarith : (1 / 2 : ℚ) ≤ s - below s e / 4)
    (zpow_nonneg zero_le_two e)).trans h.low
  linarith

theorem rounds_of_le (h : InInterval v s e) (canonical : Canonical s e)
    (low : (s - 1 / 2) * 2 ^ e ≤ v) (lead : e = -1074 ∨ 2 ^ (e + 52) ≤ v)
    (even : v = (s - 1 / 2) * 2 ^ e → Even s) : Rounds v (s * 2 ^ e) := by
  have unit : (0 : ℚ) < 2 ^ e := zpow_pos two_pos e
  refine ⟨e, s, ⟨canonical.least, h.lt canonical, lead⟩, ⟨?_, ?_, ?_⟩, rfl⟩
  · rwa [le_div_iff₀ unit]
  · rw [div_le_iff₀ unit]
    exact h.high
  · rw [div_eq_iff unit.ne', div_eq_iff unit.ne']
    rintro (tie | tie)
    · exact even tie
    · exact h.even (.inr tie)

theorem rounds_of_lt (h : InInterval v (2 ^ 52) e) (fine : -1074 < e)
    (under : v < (2 ^ 52 : Nat) * 2 ^ e) : Rounds v ((2 ^ 52 : Nat) * 2 ^ e) := by
  have unit : (0 : ℚ) < 2 ^ (e - 1) := zpow_pos two_pos _
  have whole : (2 : ℚ) ^ e = 2 ^ (e - 1) * 2 := by
    rw [← zpow_add_one₀ two_ne_zero, Int.sub_add_cancel]
  have low := h.low
  have reach : below (2 ^ 52) e = 1 := if_pos ⟨rfl, fine⟩
  rw [reach, whole] at low
  rw [whole] at under ⊢
  push_cast at low under ⊢
  have scale (i : Nat) : (2 : ℚ) ^ (e - 1 + i) = 2 ^ (e - 1) * 2 ^ i := by
    rw [zpow_add₀ two_ne_zero, zpow_natCast]
  have grid : Grid v (e - 1) := by
    refine ⟨by omega, ?_, .inr ?_⟩
    · refine under.trans_le (le_of_eq ?_)
      exact (by ring : (2 : ℚ) ^ 52 * (2 ^ (e - 1) * 2) = 2 ^ (e - 1) * 2 ^ 53).trans
        (scale 53).symm
    · refine ((scale 52).le.trans ?_).trans low
      linarith
  have nearest : Nearest (v / 2 ^ (e - 1)) (2 ^ 53) := by
    refine ⟨?_, ?_, fun _ => Nat.even_pow.2 ⟨even_two, by decide⟩⟩ <;> push_cast
    · rw [le_div_iff₀ unit]
      linarith
    · rw [div_le_iff₀ unit]
      linarith
  refine ⟨e - 1, 2 ^ 53, grid, nearest, ?_⟩
  push_cast
  ring

/-- A number in the interval of a double is rounded to the double. -/
theorem rounds (h : InInterval v s e) (canonical : Canonical s e) : Rounds v (s * 2 ^ e) := by
  have unit : (0 : ℚ) < 2 ^ e := zpow_pos two_pos e
  have scale : (2 : ℚ) ^ (e + 52) = (2 ^ 52 : Nat) * 2 ^ e := by
    rw [add_comm, zpow_add₀ two_ne_zero]
    push_cast
    rfl
  by_cases power : s = 2 ^ 52 ∧ -1074 < e
  · obtain ⟨rfl, fine⟩ := power
    rcases le_or_gt (((2 ^ 52 : Nat) : ℚ) * 2 ^ e) v with above | under
    · refine h.rounds_of_le canonical (le_trans ?_ above) (.inr (scale ▸ above)) fun _ => ?_
      · exact mul_le_mul_of_nonneg_right (by linarith) unit.le
      · exact Nat.even_pow.2 ⟨even_two, by decide⟩
    · exact h.rounds_of_lt fine under
  · have half : (below s e : ℚ) / 4 = 1 / 2 := by
      rw [below, if_neg power]
      norm_num
    have low := h.low
    have even := fun tie => h.even (.inl tie)
    rw [half] at low even
    refine h.rounds_of_le canonical low ?_ even
    by_cases least : e = -1074
    · exact .inl least
    · have more : 2 ^ 52 + 1 ≤ s := by
        have := canonical.lead.resolve_left least
        have := canonical.least
        omega
      have more : ((2 ^ 52 + 1 : Nat) : ℚ) ≤ s := Nat.cast_le.2 more
      push_cast at more
      refine .inr (scale ▸ le_trans ?_ low)
      exact mul_le_mul_of_nonneg_right (by push_cast; linarith) unit.le

end InInterval

theorem inInterval_of_picks {x : Decimal} (pos : 0 < s) (picks : (Rounding.ofBinary s e).Picks x) :
    InInterval (x.digits * 10 ^ x.exponent) s e := by
  cases picks with
  | whole inside few => exact inInterval_of_contains pos inside
  | @tenth d k inside few =>
    have shifted : (d : ℚ) * 10 ^ (k + 1) = (10 * d : Nat) * 10 ^ k := by
      rw [zpow_add_one₀ (by norm_num)]
      push_cast
      ring
    rw [shifted]
    exact inInterval_of_contains pos inside

end Interval

/-! ### Shortest digits -/

/-- The number that the shortest digits of a double make up. -/
def written (x : Float) : ℚ :=
  (Decimal.ofFloat x).digits * 10 ^ (Decimal.ofFloat x).exponent

theorem inInterval_written (x : Float) : (binaryParts x).1 = 0 ∧ written x = 0 ∨
    0 < (binaryParts x).1 ∧ InInterval (written x) (binaryParts x).1 (binaryParts x).2 := by
  rcases Decimal.picks_ofFloat x with ⟨zero, none_⟩ | ⟨nonzero, picks⟩
  · refine .inl ⟨zero, ?_⟩
    rw [written, none_, Nat.cast_zero, zero_mul]
  · have pos := Nat.pos_of_ne_zero nonzero
    exact .inr ⟨pos, inInterval_of_picks pos picks⟩

/-- The number that is written for a double is rounded to the double. -/
theorem rounds_written (x : Float) : Rounds (written x) (magnitude x) := by
  unfold magnitude
  rcases inInterval_written x with ⟨none_, zero⟩ | ⟨pos, inside⟩
  · rw [zero, none_, Nat.cast_zero, zero_mul]
    exact .zero
  · exact inside.rounds (fields_binaryParts x).canonical

end Courier.Double
