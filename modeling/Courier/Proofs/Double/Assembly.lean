import Courier.Proofs.Double.Errors
import Courier.Proofs.Double.Operations

/-!
# How digits and a power of ten are put together

The digits of a decimal make up a significand, which is rounded, and the power of ten is rounded,
too. The significand is multiplied by the power of ten, or divided by it, or by two powers of ten
one after the other, and each result is rounded. For the digits that are written for a double the
result is at most three units in its last place away from the double. It is the double itself when
neither the significand nor the power of ten is changed, because then there is only one rounding.

## Main definitions

* `Double.Gives`: a significand and a power of ten are put together to a double.
* `Double.Assembles`: they are put together to the double to which a number is rounded.
* `Double.Bounded`: they do not make up an infinity.

## Main results

* `Double.exists_assembles`: there is a small error before the last rounding.
* `Double.assembles_of_few`: there is no error before it if significand and power are doubles.
* `Double.gives_written`: what is written for a double is put together to a double close to it.
-/

namespace Courier.Double

open Float.Model (Format UnpackedFloat)
open Float.Model.UnpackedFloat
open Json (powerOfTen divideByPower assemble)

/-! ### Assembling -/

/-- The significand and the power of ten are put together, with either sign, to a double with the
magnitude `u`. -/
def Gives (m : Nat) (k : Int) (u : ℚ) : Prop :=
  ∃ z, Holds .positive z u ∧
    ∀ negative, assemble negative m k = .ok (.float (if negative then -z else z))

/-- They are put together to only one double. -/
theorem Gives.unique {m : Nat} {k : Int} {u u' : ℚ} (h : Gives m k u) (h' : Gives m k u') :
    u = u' := by
  obtain ⟨z, held, assembled⟩ := h
  obtain ⟨z', held', assembled'⟩ := h'
  have same := (assembled false).symm.trans (assembled' false)
  injection same with same
  injection same with same
  obtain rfl : z = z' := same
  rw [held.eq_self.2, ← held'.eq_self.2]

/-- The significand and the power of ten are put together to the double to which the number `w` is
rounded. -/
def Assembles (m : Nat) (k : Int) (w : ℚ) : Prop :=
  ∃ u, Rounds w u ∧ Gives m k u

section Assembles

variable {m n : Nat} {a b c q : ℚ}

theorem holds_div {x y : Float} (hx : Holds .positive x a) (hy : Holds .positive y b)
    (ha : a ≤ 2 ^ 67) (hb : Rounds (10 ^ n : Nat) b) :
    ∃ u, Rounds (a / b) u ∧ Holds .positive (x / y) u := by
  have one := one_le_pow_ten n
  have least := hb.half_le one
  have far : ((2 ^ 68 : Nat) : ℚ) < limit := by
    have far : 2 ^ 68 < limit := by decide +kernel
    exact Nat.cast_lt.2 far
  have positive : 0 < b := by linarith
  refine hx.div hy positive (lt_of_le_of_lt ?_ far)
  rw [div_le_iff₀ positive]
  push_cast
  linarith

/-- A positive double is not zero. -/
theorem beq_zero {x : Float} {v : ℚ} (held : Holds .positive x v) (pos : 0 < v) :
    (x == 0.0) = false := by
  have zero : (0.0 : Float) = .ofModel (.pack (.zero .positive)) := by decide +kernel
  have shows := held.shows
  change UnpackedFloat.beq x.toModel.unpack (0.0 : Float).toModel.unpack = false
  rw [zero]
  generalize x.toModel.unpack = r at shows
  cases shows with
  | zero => exact absurd pos (lt_irrefl 0)
  | finite pos canonical => rfl

theorem holds_significand (fits : m < 2 ^ 64) (ha : Rounds m a) :
    Holds .positive (UInt64.ofNat m).toFloat a ∧ a ≤ 2 ^ 67 := by
  obtain ⟨a', rounds, held⟩ := holds_toFloat fits
  obtain rfl := ha.unique rounds
  refine ⟨held, ha.le_two_pow ?_⟩
  have fits : (m : ℚ) < (2 ^ 64 : Nat) := Nat.cast_lt.2 fits
  push_cast at fits
  linarith

theorem holds_power (most : n ≤ 308) (hb : Rounds (10 ^ n : Nat) b) :
    Holds .positive (powerOfTen n) b := by
  obtain ⟨b', rounds, held⟩ := holds_powerOfTen most
  exact hb.unique rounds ▸ held

/-- A product that is finite is rounded. -/
theorem assembles_product (fits : m < 2 ^ 64) (most : n ≤ 308) (ha : Rounds m a)
    (hb : Rounds (10 ^ n : Nat) b)
    (bounded : ((UInt64.ofNat m).toFloat * powerOfTen n).isInf = false) :
    Assembles m n (a * b) := by
  obtain ⟨u, rounded, product⟩ :=
    (holds_significand fits ha).1.mul_of_isInf (holds_power most hb) bounded
  refine ⟨u, rounded, _, product, fun negative => ?_⟩
  have range : (n : Int) ≤ 308 := by omega
  have above : ¬ (n : Int) < 0 := by omega
  simp only [assemble, if_neg above, if_pos range, Int.toNat_natCast, bounded,
    if_neg Bool.false_ne_true]

/-- A fraction is divided by its power of ten. -/
theorem assemble_neg (negative : Bool) (m : Nat) (pos : 0 < n) :
    assemble negative m (-n) =
      .ok (.float (if negative then -divideByPower (UInt64.ofNat m).toFloat n 4
        else divideByPower (UInt64.ofNat m).toFloat n 4)) := by
  have below : -(n : Int) < 0 := by omega
  simp only [assemble, if_pos below, Int.natAbs_neg, Int.natAbs_natCast]

theorem assembles_quotient (fits : m < 2 ^ 64) (pos : 0 < n) (most : n ≤ 308) (ha : Rounds m a)
    (hb : Rounds (10 ^ n : Nat) b) : Assembles m (-n) (a / b) := by
  obtain ⟨held, small⟩ := holds_significand fits ha
  obtain ⟨u, rounded, quotient⟩ := holds_div held (holds_power most hb) small hb
  have single : divideByPower (UInt64.ofNat m).toFloat n 4 =
      (UInt64.ofNat m).toFloat / powerOfTen n := if_pos most
  exact ⟨u, rounded, _, quotient, fun negative => single ▸ assemble_neg negative m pos⟩

theorem assembles_quotients (fits : m < 2 ^ 64) (some_ : 0 < m) (pos : 0 < n) (most : n ≤ 308)
    (ha : Rounds m a) (hb : Rounds (10 ^ 308 : Nat) b) (hq : Rounds (a / b) q)
    (hc : Rounds (10 ^ n : Nat) c) : Assembles m (-(308 + n : Nat)) (q / c) := by
  obtain ⟨held, small⟩ := holds_significand fits ha
  obtain ⟨q', rounds, first⟩ := holds_div held (holds_power (Nat.le_refl 308) hb) small hb
  obtain rfl := hq.unique rounds
  obtain ⟨u, rounded, quotient⟩ := holds_div first (holds_power most hc) (hq.first_le small hb) hc
  have one : (1 : ℚ) ≤ m := Nat.one_le_cast.2 some_
  have positive : 0 < a := (half_pos (zero_lt_one.trans_le one)).trans_le (ha.half_le one)
  have many : ¬ 308 + n ≤ 308 := by omega
  have double : divideByPower (UInt64.ofNat m).toFloat (308 + n) 4 =
      (UInt64.ofNat m).toFloat / powerOfTen 308 / powerOfTen n := by
    rw [divideByPower, if_neg many, beq_zero held positive, if_neg Bool.false_ne_true,
      Nat.add_sub_cancel_left]
    exact if_pos most
  exact ⟨u, rounded, _, quotient, fun negative => double ▸ assemble_neg negative m (by omega)⟩

end Assembles

/-! ### Errors of assembled doubles -/

section Near

variable {m n s : Nat} {k e : Int}

theorem mul_zpow_neg (m n : Nat) : (m : ℚ) * 10 ^ (-n : Int) = m / (10 ^ n : Nat) := by
  rw [zpow_neg, zpow_natCast, ← div_eq_mul_inv]
  push_cast
  rfl

theorem mul_zpow_natCast (m n : Nat) : (m : ℚ) * 10 ^ (n : Int) = m * (10 ^ n : Nat) := by
  rw [zpow_natCast, Nat.cast_pow, Nat.cast_ofNat]

/-- Two quotients are put together with a small error. -/
theorem exists_assembles_quotients (pos : 0 < m) (fits : m < 2 ^ 64) (some_ : 0 < s)
    (places : 0 < n) (inside : InInterval (m * 10 ^ (-(308 + n : Nat) : Int)) s e)
    (canonical : Canonical s e) :
    ∃ w, Assembles m (-(308 + n : Nat)) w ∧
      |w - m * 10 ^ (-(308 + n : Nat) : Int)| ≤ 9 / 4 * 2 ^ e := by
  have split : (m : ℚ) * 10 ^ (-(308 + n : Nat) : Int) = m / (10 ^ 308 : Nat) / (10 ^ n : Nat) := by
    rw [mul_zpow_neg, div_div, ← Nat.cast_mul, ← Nat.pow_add]
  rw [split] at inside ⊢
  have most := places_le fits (inside.least some_ canonical)
  obtain ⟨a, ha, -⟩ := holds_toFloat fits
  obtain ⟨b, hb, -⟩ := holds_powerOfTen (Nat.le_refl 308)
  obtain ⟨c, hc, -⟩ := holds_powerOfTen most
  obtain ⟨held, small⟩ := holds_significand fits ha
  obtain ⟨q, hq, -⟩ := holds_div held (holds_power (Nat.le_refl 308) hb) small hb
  exact ⟨q / c, assembles_quotients fits pos places most ha hb hq hc,
    steps_of_quotients pos fits places inside canonical ha hb hq hc⟩

/-- The exponent is not too large for the table of powers of ten, and the product is finite. -/
def Bounded (m : Nat) (k : Int) : Prop :=
  0 ≤ k → k ≤ 308 ∧ ((UInt64.ofNat m).toFloat * powerOfTen k.toNat).isInf = false

/-- Digits that make up a number in the interval of a double are put together with a small error
before the last rounding. -/
theorem exists_assembles (fits : m < 2 ^ 64) (bounded : Bounded m k) (some_ : 0 < s)
    (inside : InInterval (m * 10 ^ k) s e) (canonical : Canonical s e) :
    ∃ w, Assembles m k w ∧ |w - m * 10 ^ k| ≤ 9 / 4 * 2 ^ e := by
  have pos : 0 < m := by
    have positive := (zpow_pos two_pos _).trans_le (inside.least some_ canonical)
    exact Nat.cast_pos.1 (pos_of_mul_pos_left positive (zpow_nonneg (by norm_num) k))
  obtain ⟨a, ha, -⟩ := holds_toFloat fits
  rcases lt_or_ge k 0 with fraction | whole
  · obtain ⟨n, rfl⟩ := Int.exists_eq_neg_ofNat fraction.le
    have places : 0 < n := by omega
    rcases Nat.lt_or_ge 308 n with many | most
    · obtain ⟨i, rfl⟩ := Nat.exists_eq_add_of_lt many
      exact exists_assembles_quotients pos fits some_ i.succ_pos inside canonical
    · obtain ⟨b, hb, -⟩ := holds_powerOfTen most
      rw [mul_zpow_neg] at inside ⊢
      exact ⟨a / b, assembles_quotient fits places most ha hb,
        steps_of_within inside canonical (within_quotient pos ha hb)⟩
  · obtain ⟨n, rfl⟩ := Int.eq_ofNat_of_zero_le whole
    obtain ⟨most, product⟩ := bounded whole
    have most : n ≤ 308 := by omega
    obtain ⟨b, hb, -⟩ := holds_powerOfTen most
    rw [mul_zpow_natCast] at inside ⊢
    exact ⟨a * b, assembles_product fits most ha hb product,
      steps_of_within inside canonical (within_product pos ha hb)⟩

/-- Few digits and a short power of ten are put together without an error before the last
rounding. -/
theorem assembles_of_few (few : m ≤ 2 ^ 53) (short : k.natAbs ≤ 22) (bounded : Bounded m k) :
    Assembles m k (m * 10 ^ k) := by
  have fits : m < 2 ^ 64 := by omega
  obtain ⟨a, ha, -⟩ := holds_toFloat fits
  obtain rfl := ha.eq_of_le few
  rcases lt_or_ge k 0 with fraction | whole
  · obtain ⟨n, rfl⟩ := Int.exists_eq_neg_ofNat fraction.le
    have short : n ≤ 22 := by omega
    obtain ⟨b, hb, -⟩ := holds_powerOfTen (n := n) (by omega)
    obtain rfl := hb.eq_of_pow short
    rw [mul_zpow_neg]
    exact assembles_quotient fits (by omega) (by omega) ha hb
  · obtain ⟨n, rfl⟩ := Int.eq_ofNat_of_zero_le whole
    have short : n ≤ 22 := by omega
    obtain ⟨b, hb, -⟩ := holds_powerOfTen (n := n) (by omega)
    obtain rfl := hb.eq_of_pow short
    rw [mul_zpow_natCast]
    exact assembles_product fits (by omega) ha hb (bounded whole).2

/-- Digits that make up the number that is written for a double are put together to a double at
most three units away, and to the double itself if they are few. -/
theorem gives_written {x : Float} (fits : m < 2 ^ 64) (bounded : Bounded m k)
    (zero : m = 0 → k.natAbs ≤ 22) (value : m * 10 ^ k = written x) :
    ∃ u, Gives m k u ∧ |u - magnitude x| ≤ 3 * 2 ^ (binaryParts x).2 ∧
      (m ≤ 2 ^ 53 → k.natAbs ≤ 22 → u = magnitude x) := by
  have rounded := rounds_written x
  rw [← value] at rounded
  have exact {u : ℚ} (given : Gives m k u) (few : m ≤ 2 ^ 53) (short : k.natAbs ≤ 22) :
      u = magnitude x := by
    obtain ⟨u', rounds', given'⟩ := assembles_of_few few short bounded
    rw [given.unique given', rounds'.unique rounded]
  rcases inInterval_written x with ⟨none_, nothing⟩ | ⟨some_, inside⟩
  · have empty : m = 0 := by
      rw [nothing] at value
      exact Nat.cast_eq_zero.1 ((mul_eq_zero_iff_right (zpow_ne_zero k (by norm_num))).1 value)
    have few : m ≤ 2 ^ 53 := empty ▸ Nat.zero_le _
    obtain ⟨u, -, given⟩ := assembles_of_few few (zero empty) bounded
    refine ⟨u, given, ?_, exact given⟩
    rw [exact given few (zero empty), sub_self, abs_zero]
    positivity
  · have canonical := (fields_binaryParts x).canonical
    rw [← value] at inside
    obtain ⟨w, ⟨u, rounds, given⟩, steps⟩ :=
      exists_assembles fits bounded some_ inside canonical
    exact ⟨u, given, near_of_steps inside canonical steps rounds, exact given⟩

end Near

end Courier.Double
