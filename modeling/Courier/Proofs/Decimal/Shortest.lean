import Courier.Decimal.Shortest
import Mathlib.Algebra.Group.Nat.Defs

/-!
# Shortest digits are few and close

The shortest digits of a double are a point of a decimal grid that rounds to the double. The grid
is at most seventeen digits finer than the double, so there are few digits; and since the point
rounds to the double, it does not exceed the upper end of the double's interval.

## Main definitions

* `Rounding.Picks`: the digits come from a point that rounds to the double.

## Main results

* `Rounding.picks_shortest`: so do the shortest digits, and seventeen are enough.
* `Decimal.exponent_ofFloat`: only zero has the digits of zero.
* `Decimal.digits_ofFloat_le`: seventeen digits suffice, or one more behind a zero.
* `Decimal.ofFloat_le`: the digits of a finite double stay below the largest double.
-/

namespace Courier

namespace Rounding

variable {r : Rounding}

/-! ### Points of a grid -/

/-- Zero does not round to a positive double. -/
theorem contains_zero (positive : 0 < r.low) (e : Int) : r.contains 0 e = false := by
  have scaled : 0 < r.low * Nat.pow 10 (-e).toNat :=
    Nat.mul_pos positive (Nat.pow_pos (by decide))
  unfold contains
  split <;> exact decide_eq_false (by rw [Nat.zero_mul, Nat.zero_mul]; omega)

theorem nearer_eq (r : Rounding) (d : Nat) (e : Int) : r.nearer d e = d ∨ r.nearer d e = d + 1 := by
  unfold nearer
  grind

theorem contains_of_onGrid? {e : Int} {d : Nat} (found : r.onGrid? e = some d) :
    r.contains d e = true ∧ d ≤ r.floor e + 1 := by
  unfold onGrid? at found
  simp only at found
  split at found
  · next below above =>
    obtain rfl := Option.some.inj found
    rcases r.nearer_eq (r.floor e) e with same | same
    · rw [same]
      exact ⟨below, Nat.le_succ _⟩
    · rw [same]
      exact ⟨above, Nat.le_refl _⟩
  · next below _ =>
    obtain rfl := Option.some.inj found
    exact ⟨below, Nat.le_succ _⟩
  · next _ above =>
    obtain rfl := Option.some.inj found
    exact ⟨above, Nat.le_refl _⟩
  · cases found

/-! ### The size of a double -/

theorem lt_magnitude (positive : 0 < r.den) :
    r.mid * 10 ^ (-r.magnitude).toNat < r.den * 10 ^ r.magnitude.toNat := by
  unfold magnitude
  split
  · next large =>
    have digits : r.mid / r.den < 10 ^ (Nat.toDigits 10 (r.mid / r.den)).length :=
      (Nat.length_toDigits_le_iff (by decide) Nat.length_toDigits_pos).1 (Nat.le_refl _)
    rw [Int.toNat_natCast, Int.toNat_neg_natCast, Nat.pow_zero, Nat.mul_one]
    exact Nat.mul_comm .. ▸ (Nat.div_lt_iff_lt_mul positive).1 digits
  · next small =>
    obtain ⟨k, length⟩ : ∃ k, (Nat.toDigits 10 (r.den / r.mid)).length = k + 1 :=
      Nat.exists_eq_add_one.2 Nat.length_toDigits_pos
    have least : r.mid * 10 ^ k ≤ r.den := by
      cases k with
      | zero => omega
      | succ k =>
        have digits : 10 ^ (k + 1) ≤ r.den / r.mid := by
          refine Nat.le_of_not_lt fun fewer => ?_
          have := (Nat.length_toDigits_le_iff (by decide) (Nat.succ_pos k)).2 fewer
          omega
        exact Nat.mul_comm .. ▸ Nat.mul_le_of_le_div _ _ _ digits
    simp only [length, Nat.add_sub_cancel]
    split
    · next exact_ =>
      change r.mid * 10 ^ k = r.den at exact_
      obtain ⟨k, rfl⟩ : ∃ k', k = k' + 1 := by
        refine Nat.exists_eq_add_one.2 (Nat.pos_of_ne_zero ?_)
        rintro rfl
        omega
      rw [show (-(2 - ((k + 1 + 1 : Nat) : Int))).toNat = k by omega,
        show (2 - ((k + 1 + 1 : Nat) : Int)).toNat = 0 by omega, Nat.pow_zero, Nat.mul_one]
      rw [Nat.pow_succ, ← Nat.mul_assoc] at exact_
      omega
    · next inexact =>
      change r.mid * 10 ^ k ≠ r.den at inexact
      rw [show (-(1 - ((k + 1 : Nat) : Int))).toNat = k by omega,
        show (1 - ((k + 1 : Nat) : Int)).toNat = 0 by omega, Nat.pow_zero, Nat.mul_one]
      omega

theorem magnitude_le (positive : 0 < r.mid) :
    r.den * 10 ^ (r.magnitude - 1).toNat ≤ r.mid * 10 ^ (1 - r.magnitude).toNat := by
  unfold magnitude
  split
  · next large =>
    obtain ⟨k, length⟩ : ∃ k, (Nat.toDigits 10 (r.mid / r.den)).length = k + 1 :=
      Nat.exists_eq_add_one.2 Nat.length_toDigits_pos
    rw [length, show (((k + 1 : Nat) : Int) - 1).toNat = k by omega,
      show (1 - ((k + 1 : Nat) : Int)).toNat = 0 by omega, Nat.pow_zero, Nat.mul_one]
    cases k with
    | zero => omega
    | succ k =>
      have digits : 10 ^ (k + 1) ≤ r.mid / r.den := by
        refine Nat.le_of_not_lt fun fewer => ?_
        have := (Nat.length_toDigits_le_iff (by decide) (Nat.succ_pos k)).2 fewer
        omega
      rw [Nat.mul_comm]
      exact Nat.mul_le_of_le_div _ _ _ digits
  · next small =>
    obtain ⟨k, length⟩ : ∃ k, (Nat.toDigits 10 (r.den / r.mid)).length = k + 1 :=
      Nat.exists_eq_add_one.2 Nat.length_toDigits_pos
    simp only [length, Nat.add_sub_cancel]
    split
    · next exact_ =>
      change r.mid * 10 ^ k = r.den at exact_
      refine Nat.le_of_eq ?_
      rw [show (2 - ((k + 1 : Nat) : Int) - 1).toNat = 0 by omega,
        show (1 - (2 - ((k + 1 : Nat) : Int))).toNat = k by omega, Nat.pow_zero, Nat.mul_one,
        exact_]
    · have digits : r.den / r.mid < 10 ^ (k + 1) :=
        (Nat.length_toDigits_le_iff (by decide) (Nat.succ_pos k)).1 (Nat.le_of_eq length)
      rw [show (1 - ((k + 1 : Nat) : Int) - 1).toNat = 0 by omega,
        show (1 - (1 - ((k + 1 : Nat) : Int))).toNat = k + 1 by omega, Nat.pow_zero, Nat.mul_one]
      exact Nat.le_of_lt (Nat.mul_comm .. ▸ (Nat.div_lt_iff_lt_mul positive).1 digits)

theorem floor_lt (positive : 0 < r.den) (k : Nat) : r.floor (r.magnitude - k) < 10 ^ k := by
  have below := lt_magnitude positive
  unfold floor
  generalize r.magnitude = g at below ⊢
  change r.mid * 10 ^ (-(g - k)).toNat / (r.den * 10 ^ (g - k).toNat) < 10 ^ k
  refine (Nat.div_lt_iff_lt_mul (Nat.mul_pos positive (Nat.pow_pos (by decide)))).2 ?_
  -- Both sides are multiplied until the powers of ten of the two grids agree.
  have powers : g.toNat + (-(g - k)).toNat = k + (g - k).toNat + (-g).toNat := by omega
  refine Nat.lt_of_mul_lt_mul_right (a := 10 ^ (-g).toNat) ?_
  calc r.mid * 10 ^ (-(g - k)).toNat * 10 ^ (-g).toNat
      = r.mid * 10 ^ (-g).toNat * 10 ^ (-(g - k)).toNat := Nat.mul_right_comm ..
    _ < r.den * 10 ^ g.toNat * 10 ^ (-(g - k)).toNat :=
        Nat.mul_lt_mul_of_pos_right below (Nat.pow_pos (by decide))
    _ = 10 ^ k * (r.den * 10 ^ (g - k).toNat) * 10 ^ (-g).toNat := by
        rw [Nat.mul_assoc, ← Nat.pow_add, powers, Nat.pow_add, Nat.pow_add]
        ac_rfl

theorem contains_of_between {d : Nat} {e : Int}
    (low : r.low * 10 ^ (-e).toNat < d * 10 ^ e.toNat * r.den)
    (high : d * 10 ^ e.toNat * r.den < r.high * 10 ^ (-e).toNat) : r.contains d e = true := by
  unfold contains
  split
  · exact decide_eq_true ⟨Nat.le_of_lt low, Nat.le_of_lt high⟩
  · exact decide_eq_true ⟨low, high⟩

/-- A grid that is finer than the interval has a point in it next to the double. -/
theorem exists_onGrid? {e : Int} (positive : 0 < r.den) (low : r.low < r.mid)
    (high : r.mid < r.high)
    (fine : r.den * 10 ^ e.toNat < (r.high - r.low) * 10 ^ (-e).toNat) :
    ∃ d, r.onGrid? e = some d := by
  have either : r.contains (r.floor e) e = true ∨ r.contains (r.floor e + 1) e = true := by
    have scale : 0 < 10 ^ (-e).toNat := Nat.pow_pos (by decide)
    have unit : 0 < r.den * 10 ^ e.toNat := Nat.mul_pos positive (Nat.pow_pos (by decide))
    have low := Nat.mul_lt_mul_of_pos_right low scale
    have high := Nat.mul_lt_mul_of_pos_right high scale
    rw [Nat.sub_mul] at fine
    have below : r.floor e * (r.den * 10 ^ e.toNat) ≤ r.mid * 10 ^ (-e).toNat :=
      Nat.div_mul_le_self _ _
    have above : r.mid * 10 ^ (-e).toNat < (r.floor e + 1) * (r.den * 10 ^ e.toNat) := by
      rw [Nat.mul_comm (r.floor e + 1)]
      exact Nat.lt_mul_div_succ _ unit
    have point (d : Nat) : d * 10 ^ e.toNat * r.den = d * (r.den * 10 ^ e.toNat) := by
      rw [Nat.mul_assoc, Nat.mul_comm (10 ^ e.toNat)]
    rw [Nat.add_mul, Nat.one_mul] at above
    by_cases inside : r.low * 10 ^ (-e).toNat < r.floor e * (r.den * 10 ^ e.toNat)
    · exact .inl (contains_of_between (point _ ▸ inside) (point _ ▸ Nat.lt_of_le_of_lt below high))
    · refine .inr (contains_of_between ?_ ?_) <;> rw [point, Nat.add_mul, Nat.one_mul] <;> omega
  unfold onGrid?
  simp only
  rcases either with inside | inside <;> rw [inside] <;> split <;> simp_all

/-! ### The shortest digits -/

/-- A decimal is a point that rounds to the double, without the zero at the end if there is one, of
a grid with few points below the double. -/
inductive Picks (r : Rounding) : Decimal → Prop where
  | whole {d : Nat} {e : Int} (inside : r.contains d e = true) (few : d ≤ 10 ^ 17) : Picks r ⟨d, e⟩
  | tenth {d : Nat} {e : Int} (inside : r.contains (10 * d) e = true) (few : 10 * d ≤ 10 ^ 17) :
      Picks r ⟨d, e + 1⟩

/-- A grid with seventeen digits is finer than an interval that is not too small a part of the
double. -/
theorem lt_mul_width (low : r.low < r.mid) (wide : r.mid < 10 ^ 16 * (r.high - r.low)) :
    r.den * 10 ^ (r.magnitude - 17).toNat <
      (r.high - r.low) * 10 ^ (-(r.magnitude - 17)).toNat := by
  have least := magnitude_le (Nat.zero_lt_of_lt low)
  generalize r.magnitude = g at least ⊢
  -- Both sides are multiplied until the powers of ten of the two grids agree.
  have powers : (g - 17).toNat + (16 + (1 - g).toNat) = (g - 1).toNat + (-(g - 17)).toNat := by
    omega
  refine Nat.lt_of_mul_lt_mul_right (a := 10 ^ (16 + (1 - g).toNat)) ?_
  calc r.den * 10 ^ (g - 17).toNat * 10 ^ (16 + (1 - g).toNat)
      = r.den * 10 ^ (g - 1).toNat * 10 ^ (-(g - 17)).toNat := by
        rw [Nat.mul_assoc, ← Nat.pow_add, powers, Nat.pow_add, Nat.mul_assoc]
    _ ≤ r.mid * 10 ^ (1 - g).toNat * 10 ^ (-(g - 17)).toNat := Nat.mul_le_mul_right _ least
    _ < 10 ^ 16 * (r.high - r.low) * 10 ^ (1 - g).toNat * 10 ^ (-(g - 17)).toNat :=
        Nat.mul_lt_mul_of_pos_right
          (Nat.mul_lt_mul_of_pos_right wide (Nat.pow_pos (by decide))) (Nat.pow_pos (by decide))
    _ = (r.high - r.low) * 10 ^ (-(g - 17)).toNat * 10 ^ (16 + (1 - g).toNat) := by
        rw [Nat.pow_add]
        ac_rfl

/-- The shortest digits are picked, and seventeen suffice. -/
theorem picks_shortest (positive : 0 < r.den) (low : r.low < r.mid) (high : r.mid < r.high)
    (wide : r.mid < 10 ^ 16 * (r.high - r.low)) : r.Picks r.shortest := by
  unfold shortest
  simp only
  generalize found : (List.range 17).findSome? _ = result
  cases result with
  | none =>
    obtain ⟨d, grid⟩ := exists_onGrid? positive low high (lt_mul_width low wide)
    have last := List.findSome?_eq_none_iff.1 found 16 (List.mem_range.2 (by decide))
    rw [Option.map_eq_none_iff] at last
    exact absurd (grid.symm.trans last) (Option.some_ne_none d)
  | some x =>
    obtain ⟨k, inRange, grid⟩ := List.exists_of_findSome?_eq_some found
    obtain ⟨d, point, rfl⟩ := Option.map_eq_some_iff.1 grid
    obtain ⟨inside, next_⟩ := contains_of_onGrid? point
    have few : d ≤ 10 ^ 17 := by
      have below := r.floor_lt positive (k + 1)
      have steps : 10 ^ (k + 1) ≤ 10 ^ 17 :=
        Nat.pow_le_pow_right (by decide) (List.mem_range.1 inRange)
      exact Nat.le_trans next_ (Nat.le_trans below steps)
    rw [Option.getD_some]
    split
    · next zero =>
      have whole : 10 * (d / 10) = d := by omega
      exact .tenth (whole.symm ▸ inside) (whole.symm ▸ few)
    · exact .whole inside few

theorem le_of_contains {d : Nat} {e : Int} (inside : r.contains d e = true) (whole : 0 ≤ e) :
    d * 10 ^ e.toNat * r.den ≤ r.high := by
  have none_ : (-e).toNat = 0 := by omega
  unfold contains at inside
  simp only [none_] at inside
  change (if r.closed then decide (r.low * 1 ≤ d * 10 ^ e.toNat * r.den ∧
    d * 10 ^ e.toNat * r.den ≤ r.high * 1) else decide (r.low * 1 < d * 10 ^ e.toNat * r.den ∧
    d * 10 ^ e.toNat * r.den < r.high * 1)) = true at inside
  split at inside
  · have := (of_decide_eq_true inside).2
    omega
  · have := (of_decide_eq_true inside).2
    omega

namespace Picks

variable {x : Decimal}

theorem few (h : r.Picks x) : x.digits ≤ 10 ^ 17 := by
  cases h with
  | whole inside few => exact few
  | tenth inside few => exact Nat.le_trans (Nat.le_mul_of_pos_left _ (by decide)) few

theorem pos (h : r.Picks x) (positive : 0 < r.low) : 0 < x.digits := by
  refine Nat.pos_of_ne_zero fun zero => ?_
  cases h with
  | whole inside few =>
    obtain rfl : _ = 0 := zero
    rw [contains_zero positive] at inside
    cases inside
  | tenth inside few =>
    obtain rfl : _ = 0 := zero
    rw [Nat.mul_zero, contains_zero positive] at inside
    cases inside

/-- A decimal with a positive exponent does not exceed the upper end of the interval. -/
theorem le_high (h : r.Picks x) (positive : 0 < x.exponent) :
    x.digits * 10 ^ x.exponent.toNat * r.den ≤ r.high := by
  cases h with
  | whole inside few => exact le_of_contains inside (Int.le_of_lt positive)
  | @tenth d e inside few =>
    have whole : 0 ≤ e := Int.le_of_lt_add_one positive
    have power : 10 ^ (e + 1).toNat = 10 * 10 ^ e.toNat := by
      rw [show (e + 1).toNat = e.toNat + 1 by omega, Nat.pow_succ, Nat.mul_comm]
    have := le_of_contains inside whole
    change d * 10 ^ (e + 1).toNat * r.den ≤ r.high
    rwa [power, ← Nat.mul_assoc, Nat.mul_comm d]

end Picks

/-! ### The digits of doubles -/

theorem picks_ofBinary {s : Nat} (pos : 0 < s) (bits : s < 2 ^ 53) (e : Int) :
    (ofBinary s e).Picks (ofBinary s e).shortest := by
  have scale : 0 < 2 ^ (e - 2).toNat := Nat.two_pow_pos _
  refine picks_shortest (Nat.two_pow_pos _) ?_ ?_ ?_
  · refine Nat.mul_lt_mul_of_pos_right ?_ scale
    split <;> omega
  · exact Nat.mul_lt_mul_of_pos_right (Nat.lt_add_of_pos_right (by decide)) scale
  · change 4 * s * 2 ^ (e - 2).toNat < 10 ^ 16 * ((4 * s + 2) * 2 ^ (e - 2).toNat -
      (4 * s - if s = hiddenBit ∧ e > -1074 then 1 else 2) * 2 ^ (e - 2).toNat)
    rw [← Nat.sub_mul, ← Nat.mul_assoc]
    refine Nat.mul_lt_mul_of_pos_right ?_ scale
    split
    · next power =>
      have : s = 2 ^ 52 := power.1
      omega
    · omega

/-- The middle between the two largest doubles. -/
@[irreducible] def top : Nat :=
  (2 ^ 54 - 3) * 2 ^ 970

/-- A number that does not exceed `top` has few zeros. -/
theorem exponent_le {d n : Nat} (pos : 0 < d) (small : d * 10 ^ n ≤ top) : n ≤ 308 := by
  have grows (k : Nat) (further : k ≤ n) : 10 ^ k ≤ top :=
    Nat.le_trans (Nat.pow_le_pow_right (by decide) further)
      (Nat.le_trans (Nat.le_mul_of_pos_left _ pos) small)
  have out : ¬ 10 ^ 309 ≤ top := by decide +kernel
  exact Nat.le_of_not_lt fun more => out (grows 309 more)

theorem high_ofBinary_le {s : Nat} {e : Int} (bits : s < 2 ^ 53) (most : e ≤ 971)
    (other : ¬(s = 2 ^ 53 - 1 ∧ e = 971)) :
    (ofBinary s e).high ≤ top * (ofBinary s e).den := by
  refine Nat.le_trans ?_ (Nat.le_mul_of_pos_right top (Nat.two_pow_pos (2 - e).toNat))
  unfold top
  change (4 * s + 2) * 2 ^ (e - 2).toNat ≤ _
  by_cases largest : e = 971
  · have scale : 2 ^ 970 = 2 * 2 ^ 969 := by decide +kernel
    rw [scale, ← Nat.mul_assoc, show (e - 2).toNat = 969 by omega]
    exact Nat.mul_le_mul_right _ (by omega)
  · have short : 4 * s + 2 ≤ (2 ^ 54 - 3) * 4 := by omega
    have grows (k : Nat) (further : (e - 2).toNat ≤ k) : 2 ^ (e - 2).toNat ≤ 2 ^ k :=
      Nat.pow_le_pow_right (by decide) further
    have scale : 2 ^ 970 = 4 * 2 ^ 968 := by decide +kernel
    rw [scale, ← Nat.mul_assoc]
    exact Nat.mul_le_mul short (grows 968 (by omega))

end Rounding

/-- The exponent of a finite double is not the one that infinities have. -/
theorem exponent_of_isFinite {x : Float} (finite : x.isFinite = true) :
    x.toBits.toNat / hiddenBit % 2048 ≠ 2047 := by
  intro special
  have field : (@Float.Model.UnpackedFloat.unpackExponent Float.Model.Format.binary64
      x.toModel.toBits.toBitVec).toNat = 2047 := by
    simp only [Float.Model.UnpackedFloat.unpackExponent, BitVec.toNat_cast, BitVec.extractLsb_toNat,
      Nat.shiftRight_eq_div_pow]
    exact special
  have exponent : @Float.Model.UnpackedFloat.unpackExponent Float.Model.Format.binary64
      x.toModel.toBits.toBitVec = -1#_ :=
    BitVec.eq_of_toNat_eq field
  have parts : x.toModel.unpack = if @Float.Model.UnpackedFloat.unpackMantissa
      Float.Model.Format.binary64 x.toModel.toBits.toBitVec = 0#_ then .infinity _
    else .notANumber := if_pos exponent
  rw [Float.isFinite, Float.Model.isFinite, parts] at finite
  split at finite <;> cases finite

theorem fst_binaryParts_lt (x : Float) : (binaryParts x).1 < 2 ^ 53 := by
  unfold binaryParts
  unfold hiddenBit
  simp only
  split <;> simp only <;> omega

theorem binaryParts_lt {x : Float} (finite : x.isFinite = true) :
    (binaryParts x).1 < 2 ^ 53 ∧ (binaryParts x).2 ≤ 971 := by
  refine ⟨fst_binaryParts_lt x, ?_⟩
  have field := exponent_of_isFinite finite
  unfold binaryParts
  unfold hiddenBit at *
  simp only
  split
  · exact (by decide : (-1074 : Int) ≤ 971)
  · omega

namespace Decimal

theorem ofFloat_eq (x : Float) :
    ofFloat x = if (binaryParts x).1 = 0 then ⟨0, 0⟩
      else (Rounding.ofBinary (binaryParts x).1 (binaryParts x).2).shortest :=
  rfl

theorem picks_ofFloat (x : Float) : (binaryParts x).1 = 0 ∧ ofFloat x = ⟨0, 0⟩ ∨
    (binaryParts x).1 ≠ 0 ∧
      (Rounding.ofBinary (binaryParts x).1 (binaryParts x).2).Picks (ofFloat x) := by
  rw [ofFloat_eq]
  split
  · next zero => exact .inl ⟨zero, rfl⟩
  · next nonzero =>
    have pos := Nat.pos_of_ne_zero nonzero
    exact .inr ⟨nonzero, Rounding.picks_ofBinary pos (fst_binaryParts_lt x) _⟩

/-- Only zero has the digits of zero, and then the exponent is zero as well. -/
theorem exponent_ofFloat {x : Float} (zero : (ofFloat x).digits = 0) :
    (ofFloat x).exponent = 0 := by
  rcases picks_ofFloat x with ⟨-, none_⟩ | ⟨nonzero, picks⟩
  · rw [none_]
  · refine absurd zero (Nat.ne_of_gt (picks.pos ?_))
    refine Nat.mul_pos ?_ (Nat.two_pow_pos _)
    split <;> omega

/-- Seventeen digits suffice. -/
theorem digits_ofFloat_le (x : Float) : (ofFloat x).digits ≤ 10 ^ 17 := by
  rcases picks_ofFloat x with ⟨-, none_⟩ | ⟨-, picks⟩
  · rw [none_]
    exact Nat.zero_le _
  · exact picks.few

/-- The digits of the largest double are known, and those of the others do not exceed `top`. -/
theorem ofFloat_le {x : Float} (finite : x.isFinite = true)
    (positive : 0 < (ofFloat x).exponent) :
    ofFloat x = ⟨17976931348623157, 292⟩ ∨
      (ofFloat x).digits * 10 ^ (ofFloat x).exponent.toNat ≤ Rounding.top := by
  obtain ⟨bits, most⟩ := binaryParts_lt finite
  rcases picks_ofFloat x with ⟨-, none_⟩ | ⟨nonzero, picks⟩
  · rw [none_] at positive
    exact absurd positive (Int.lt_irrefl 0)
  by_cases largest : (binaryParts x).1 = 2 ^ 53 - 1 ∧ (binaryParts x).2 = 971
  · refine .inl ?_
    rw [ofFloat_eq, if_neg nonzero, largest.1, largest.2]
    decide +kernel
  · refine .inr (Nat.le_of_mul_le_mul_right ?_ (Nat.two_pow_pos (2 - (binaryParts x).2).toNat))
    exact Nat.le_trans (picks.le_high positive) (Rounding.high_ofBinary_le bits most largest)

end Decimal

end Courier
