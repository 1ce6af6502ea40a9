import Courier.Proofs.Decimal.Shortest
import Courier.Proofs.Double.Nearest

/-!
# The parts of a double

A finite double is a sign, a significand and an exponent. The significand has 53 bits, or the
exponent is the least one, so that a sign and a magnitude belong to one double only. The parts
fill the fields of the bits and are found there again.

## Main definitions

* `Double.Canonical`: the significand and the exponent of a double.
* `Double.Shows`: parts show a sign and a magnitude.
* `Double.Holds`: a double has a sign and a magnitude.
* `Double.sign`, `Double.magnitude`: those of a given double.

## Main results

* `Double.Shows.unpack_pack`: parts are packed without loss.
* `Double.holds_self`: every finite double has its sign and its magnitude.
* `Double.Holds.unique`, `Double.Holds.eq_self`: a sign and a magnitude belong to one double, and
  a double has one sign and one magnitude.
-/

namespace Courier.Double

open Float.Model (Format UnpackedFloat)
open Float.Model.UnpackedFloat

/-! ### Parts -/

/-- The significand and the exponent of a positive double, but for the bound on the exponent. -/
structure Canonical (m : Nat) (e : Int) : Prop where
  bits : m < 2 ^ 53
  least : -1074 ≤ e
  lead : e = -1074 ∨ 2 ^ 52 ≤ m

/-- Parts of a double show its sign and its magnitude, if it is finite. -/
inductive Shows (s : Sign) : ℚ → UnpackedFloat → Prop where
  | zero : Shows s 0 (.zero s)
  | finite {m : Nat} {e : Int} (pos : 0 < m) (canonical : Canonical m e) :
      Shows s (m * 2 ^ e) (.finite s m e pos)

/-! ### The fields of a double -/

theorem toNat_append_eq {i j : Nat} (x : BitVec i) (y : BitVec j) :
    (x ++ y).toNat = x.toNat * 2 ^ j + y.toNat := by
  rw [BitVec.toNat_append, ← Nat.shiftLeft_add_eq_or_of_lt y.isLt, Nat.shiftLeft_eq]

theorem toNat_packComponents (s : Sign) (f : BitVec 11) (n : BitVec 52) :
    (packComponents Format.binary64 s f n).toNat =
      (s.toBitVec.toNat * 2 ^ 11 + f.toNat) * 2 ^ 52 + n.toNat := by
  rw [packComponents, toNat_append_eq, toNat_append_eq]

theorem unpackSign_packComponents (s : Sign) (f : BitVec 11) (n : BitVec 52) :
    unpackSign (packComponents Format.binary64 s f n) = s.toBitVec := by
  have sign := s.toBitVec.isLt
  have exponent := f.isLt
  have mantissa := n.isLt
  refine BitVec.eq_of_toNat_eq ?_
  change (packComponents Format.binary64 s f n).toNat >>> 63 % 2 = _
  rw [toNat_packComponents, Nat.shiftRight_eq_div_pow]
  omega

theorem ofBitVec_toBitVec (s : Sign) : Sign.ofBitVec s.toBitVec = s := by
  cases s <;> rfl

theorem toNat_implicit (n : BitVec 52) : (1#1 ++ n).toNat = 2 ^ 52 + n.toNat := by
  rw [toNat_append_eq]
  rfl

theorem finite_eq {s : Sign} {m m' : Nat} {e e' : Int} {pos : 0 < m} {pos' : 0 < m'} (hm : m = m')
    (he : e = e') : UnpackedFloat.finite s m e pos = .finite s m' e' pos' := by
  subst hm he
  rfl

/-- What the fields of a double stand for. -/
theorem unpack_packComponents_eq (s : Sign) (f : BitVec 11) (n : BitVec 52) :
    UnpackedFloat.unpack Format.binary64 (packComponents Format.binary64 s f n) =
      if f = -1#11 then if n = 0#52 then .infinity s else .notANumber
      else if f = 0#11 then
        if h : n = 0#52 then .zero s
        else .finite s n.toNat (-1074) (Nat.pos_of_ne_zero fun z => h (BitVec.eq_of_toNat_eq z))
      else .finite s (2 ^ 52 + n.toNat) (f.toNat - 1075) (by omega) := by
  have sign : Sign.ofBitVec (unpackSign (packComponents Format.binary64 s f n)) = s :=
    (congrArg _ (unpackSign_packComponents s f n)).trans (ofBitVec_toBitVec s)
  have exponent : unpackExponent (packComponents Format.binary64 s f n) = f :=
    unpackExponent_packComponents
  have mantissa : unpackMantissa (packComponents Format.binary64 s f n) = n :=
    unpackMantissa_packComponents
  generalize packComponents Format.binary64 s f n = b at sign exponent mantissa ⊢
  subst sign exponent mantissa
  unfold UnpackedFloat.unpack
  dsimp only
  by_cases special : unpackExponent b = -1#11
  · rw [if_pos special, if_pos special]
  rw [if_neg special, if_neg special]
  by_cases least : unpackExponent b = 0#11
  · rw [if_pos least, if_pos least]
    by_cases none_ : unpackMantissa b = 0#52
    · rw [dif_pos none_, dif_pos none_]
    · rw [dif_neg none_, dif_neg none_]
      exact finite_eq rfl (by rw [least]; rfl)
  · rw [if_neg least, if_neg least]
    exact finite_eq (toNat_implicit _) rfl

/-- The fields of a double with given parts. -/
theorem pack_finite (s : Sign) {m : Nat} {e : Int} (pos : 0 < m) :
    UnpackedFloat.pack Format.binary64 (.finite s m e pos) =
      if 2 ^ 11 ≤ (e + 1075).toNat + 1 then packedInfinity Format.binary64 s
      else if m.log2 + 1 = 53 then
        packComponents Format.binary64 s (BitVec.ofNat 11 (e + 1075).toNat) (BitVec.ofNat 52 m)
      else packComponents Format.binary64 s 0#11 (BitVec.ofNat 52 m) := by
  have biased : e + 1023 + 52 = e + 1075 := Int.add_assoc ..
  rw [← biased]
  rfl

theorem Canonical.le_of_lt {m : Nat} {e : Int} (canonical : Canonical m e)
    (small : (m : ℚ) * 2 ^ e < 2 ^ (1024 : Int)) : e ≤ 971 := by
  by_contra large
  have lead : 2 ^ 52 ≤ m := canonical.lead.resolve_left (by omega)
  have out : (2 : ℚ) ^ (1024 : Int) ≤ m * 2 ^ e := by
    have least : (2 : ℚ) ^ (52 : Int) ≤ m := by exact_mod_cast lead
    have unit : (2 : ℚ) ^ (972 : Int) ≤ 2 ^ e := zpow_le_zpow_right₀ one_le_two (by omega)
    calc (2 : ℚ) ^ (1024 : Int) = 2 ^ (52 : Int) * 2 ^ (972 : Int) :=
          zpow_add₀ two_ne_zero 52 972
      _ ≤ m * 2 ^ e := mul_le_mul least unit (zpow_nonneg zero_le_two _) (Nat.cast_nonneg m)
  linarith

/-- Parts of a double are packed without loss. -/
theorem Shows.unpack_pack {s : Sign} {u : ℚ} {r : UnpackedFloat} (shows : Shows s u r)
    (small : u < 2 ^ (1024 : Int)) : (Float.Model.pack r).unpack = r := by
  change UnpackedFloat.unpack Format.binary64 (UnpackedFloat.pack Format.binary64 r) = r
  cases shows with
  | zero =>
    change UnpackedFloat.unpack _ (packComponents Format.binary64 s 0#11 0#52) = _
    rw [unpack_packComponents_eq]
    rfl
  | @finite m e pos canonical =>
    have most := canonical.le_of_lt small
    have bits := canonical.bits
    have least := canonical.least
    by_cases lead : 2 ^ 52 ≤ m
    · have field : (BitVec.ofNat 11 (e + 1075).toNat).toNat = (e + 1075).toNat := by
        rw [BitVec.toNat_ofNat]
        exact Nat.mod_eq_of_lt (by omega)
      have mantissa : 2 ^ 52 + (BitVec.ofNat 52 m).toNat = m := by
        rw [BitVec.toNat_ofNat]
        omega
      have differs {k : Nat} {f : BitVec 11} (value : f.toNat = k) (other : (e + 1075).toNat ≠ k) :
          BitVec.ofNat 11 (e + 1075).toNat ≠ f :=
        fun eq => other (field.symm.trans ((congrArg BitVec.toNat eq).trans value))
      have log : m.log2 = 52 := (Nat.log2_eq_iff (Nat.ne_of_gt pos)).2 ⟨lead, bits⟩
      rw [pack_finite, if_neg (by omega), if_pos (by omega), unpack_packComponents_eq,
        if_neg (differs (k := 2047) rfl (by omega)), if_neg (differs (k := 0) rfl (by omega))]
      exact finite_eq mantissa (by rw [field]; omega)
    · obtain rfl : e = -1074 := canonical.lead.resolve_right lead
      have mantissa : (BitVec.ofNat 52 m).toNat = m := by
        rw [BitVec.toNat_ofNat]
        omega
      have nonzero : BitVec.ofNat 52 m ≠ 0#52 := fun zero => by
        rw [zero] at mantissa
        exact Nat.ne_of_lt pos mantissa
      have log : m.log2 < 52 := (Nat.log2_lt (Nat.ne_of_gt pos)).2 (Nat.not_le.1 lead)
      rw [pack_finite, if_neg (by decide), if_neg (by omega), unpack_packComponents_eq,
        if_neg (by decide), if_pos rfl, dif_neg nonzero]
      exact finite_eq mantissa rfl

/-! ### The value of a double -/

/-- The sign of a double. -/
def sign (x : Float) : Sign :=
  if signBit x then .negative else .positive

theorem signBit_eq {x y : Float} (same : sign x = sign y) : signBit x = signBit y := by
  unfold sign at same
  generalize signBit x = a at same ⊢
  generalize signBit y = b at same ⊢
  cases a <;> cases b <;> first | rfl | cases same

/-- The magnitude of a finite double. -/
def magnitude (x : Float) : ℚ :=
  (binaryParts x).1 * 2 ^ (binaryParts x).2

theorem packComponents_fields (x : Float) :
    packComponents Format.binary64 (sign x) (BitVec.ofNat 11 (x.toBits.toNat / 2 ^ 52))
      (BitVec.ofNat 52 x.toBits.toNat) = x.toModel.toBits.toBitVec := by
  refine BitVec.eq_of_toNat_eq ?_
  have whole : x.toModel.toBits.toBitVec.toNat = x.toBits.toNat := rfl
  have bound : x.toBits.toNat < 2 ^ 64 := x.toBits.toNat_lt
  have signed : (sign x).toBitVec.toNat = x.toBits.toNat / 2 ^ 63 := by
    unfold sign signBit
    have : int64Limit = 2 ^ 63 := rfl
    rw [this]
    by_cases negative : x.toBits.toNat / 2 ^ 63 = 1
    · rw [decide_eq_true negative, negative]
      rfl
    · rw [decide_eq_false negative]
      change 0 = _
      omega
  rw [toNat_packComponents, whole, signed, BitVec.toNat_ofNat, BitVec.toNat_ofNat]
  omega

/-- The double has the sign `s` and the magnitude `u`. -/
def Holds (s : Sign) (x : Float) (u : ℚ) : Prop :=
  ∃ r, Shows s u r ∧ u < 2 ^ (1024 : Int) ∧ x = .ofModel (.pack r)

theorem zpow_add_le {m : Nat} {e : Int} (bits : m < 2 ^ 53) (most : e ≤ 971) :
    (m : ℚ) * 2 ^ e < 2 ^ (1024 : Int) := by
  have bits : (m : ℚ) < 2 ^ (53 : Int) := by exact_mod_cast bits
  calc (m : ℚ) * 2 ^ e < 2 ^ (53 : Int) * 2 ^ e := mul_lt_mul_of_pos_right bits (zpow_pos two_pos e)
    _ = 2 ^ (53 + e) := (zpow_add₀ two_ne_zero _ _).symm
    _ ≤ 2 ^ (1024 : Int) := zpow_le_zpow_right₀ one_le_two (by omega)

/-- The significand `m` and the exponent `e` belong to a double with the bits `b`. -/
inductive Fields (b m : Nat) (e : Int) : Prop where
  | small (empty : b / 2 ^ 52 % 2 ^ 11 = 0) (mantissa : m = b % 2 ^ 52) (least : e = -1074)
  | large (filled : b / 2 ^ 52 % 2 ^ 11 ≠ 0) (mantissa : m = b % 2 ^ 52 + 2 ^ 52)
      (biased : e + 1075 = (b / 2 ^ 52 % 2 ^ 11 : Nat))

theorem fields_binaryParts (x : Float) :
    Fields x.toBits.toNat (binaryParts x).1 (binaryParts x).2 := by
  unfold binaryParts
  simp only
  split
  · next empty => exact .small empty rfl rfl
  · next filled => exact .large filled rfl (Int.sub_add_cancel _ _)

namespace Fields

variable {b m : Nat} {e : Int}

theorem canonical (fields : Fields b m e) : Canonical m e := by
  cases fields with
  | small empty mantissa least => exact ⟨by omega, by omega, .inl least⟩
  | large filled mantissa biased => exact ⟨by omega, by omega, .inr (by omega)⟩

theorem mantissa_eq (fields : Fields b m e) : BitVec.ofNat 52 m = BitVec.ofNat 52 b := by
  refine BitVec.eq_of_toNat_eq ?_
  rw [BitVec.toNat_ofNat, BitVec.toNat_ofNat]
  cases fields <;> omega

theorem pack_eq (fields : Fields b m e) (s : Sign) (finite : b / 2 ^ 52 % 2 ^ 11 ≠ 2047)
    (pos : 0 < m) : UnpackedFloat.pack Format.binary64 (.finite s m e pos) =
      packComponents Format.binary64 s (BitVec.ofNat 11 (b / 2 ^ 52)) (BitVec.ofNat 52 b) := by
  rw [pack_finite, fields.mantissa_eq]
  cases fields with
  | small empty mantissa least =>
    have log : m.log2 < 52 := (Nat.log2_lt (Nat.ne_of_gt pos)).2 (by omega)
    have field : 0#11 = BitVec.ofNat 11 (b / 2 ^ 52) :=
      BitVec.eq_of_toNat_eq (empty.symm.trans (BitVec.toNat_ofNat ..).symm)
    rw [if_neg (by omega), if_neg (by omega), field]
  | large filled mantissa biased =>
    have log : m.log2 = 52 := (Nat.log2_eq_iff (by omega)).2 ⟨by omega, by omega⟩
    have field : BitVec.ofNat 11 (e + 1075).toNat = BitVec.ofNat 11 (b / 2 ^ 52) := by
      refine BitVec.eq_of_toNat_eq ?_
      rw [biased, Int.toNat_natCast, BitVec.toNat_ofNat, BitVec.toNat_ofNat, Nat.mod_mod]
    rw [if_neg (by omega), if_pos (by omega), field]

theorem pack_zero (fields : Fields b 0 e) (s : Sign) :
    UnpackedFloat.pack Format.binary64 (.zero s) =
      packComponents Format.binary64 s (BitVec.ofNat 11 (b / 2 ^ 52)) (BitVec.ofNat 52 b) := by
  rw [← fields.mantissa_eq]
  cases fields with
  | small empty mantissa least =>
    have field : 0#11 = BitVec.ofNat 11 (b / 2 ^ 52) :=
      BitVec.eq_of_toNat_eq (empty.symm.trans (BitVec.toNat_ofNat ..).symm)
    rw [← field]
    rfl
  | large filled mantissa biased => omega

end Fields

/-- A double with given fields. -/
theorem eq_of_pack {x : Float} {r : UnpackedFloat}
    (fields : UnpackedFloat.pack Format.binary64 r = packComponents Format.binary64 (sign x)
      (BitVec.ofNat 11 (x.toBits.toNat / 2 ^ 52)) (BitVec.ofNat 52 x.toBits.toNat)) :
    x = .ofModel (.pack r) := by
  have bits : UInt64.ofBitVec (UnpackedFloat.pack Format.binary64 r) = x.toModel.toBits := by
    rw [fields]
    exact congrArg UInt64.ofBitVec (packComponents_fields x)
  obtain ⟨⟨b, valid⟩⟩ := x
  dsimp only at bits
  subst bits
  rfl

/-- A finite double holds its value. -/
theorem holds_self {x : Float} (finite : x.isFinite = true) : Holds (sign x) x (magnitude x) := by
  have fields := fields_binaryParts x
  have special := exponent_of_isFinite finite
  obtain ⟨bits, most⟩ := binaryParts_lt finite
  unfold magnitude
  generalize (binaryParts x).1 = m at *
  generalize (binaryParts x).2 = e at *
  have small : (m : ℚ) * 2 ^ e < 2 ^ (1024 : Int) := zpow_add_le bits most
  rcases Nat.eq_zero_or_pos m with rfl | pos
  · rw [Nat.cast_zero, zero_mul] at small ⊢
    exact ⟨_, .zero, small, eq_of_pack (fields.pack_zero _)⟩
  · exact ⟨_, .finite pos fields.canonical, small, eq_of_pack (fields.pack_eq _ special pos)⟩

theorem Canonical.grid {m : Nat} {e : Int} (canonical : Canonical m e) : Grid (m * 2 ^ e) e where
  least := canonical.least
  bits := by
    rw [add_comm, zpow_add₀ two_ne_zero]
    refine mul_lt_mul_of_pos_right ?_ (zpow_pos two_pos e)
    exact_mod_cast canonical.bits
  lead := canonical.lead.imp_right fun lead => by
    rw [add_comm, zpow_add₀ two_ne_zero]
    refine mul_le_mul_of_nonneg_right ?_ (zpow_nonneg zero_le_two e)
    exact_mod_cast lead

namespace Shows

variable {s s' : Sign} {u u' : ℚ} {r r' : UnpackedFloat}

theorem inj (h : Shows s u r) (h' : Shows s' u' r) : s = s' ∧ u = u' := by
  cases h <;> cases h' <;> exact ⟨rfl, rfl⟩

theorem unique (h : Shows s u r) (h' : Shows s u r') : r = r' := by
  have scale (e : Int) : (2 : ℚ) ^ e ≠ 0 := zpow_ne_zero e two_ne_zero
  generalize same : u = w at h'
  cases h with
  | zero =>
    cases h' with
    | zero => rfl
    | @finite m e pos canonical =>
      exact absurd same.symm (mul_ne_zero (Nat.cast_ne_zero.2 (Nat.ne_of_gt pos)) (scale e))
  | @finite m e pos canonical =>
    cases h' with
    | zero => exact absurd same (mul_ne_zero (Nat.cast_ne_zero.2 (Nat.ne_of_gt pos)) (scale e))
    | @finite m' e' pos' canonical' =>
      obtain rfl := (same ▸ canonical.grid).unique canonical'.grid
      obtain rfl : m = m' := Nat.cast_injective (mul_right_cancel₀ (scale e) same)
      rfl

theorem nonneg (h : Shows s u r) : 0 ≤ u := by
  cases h with
  | zero => exact le_rfl
  | finite pos canonical => positivity

theorem lt_of_isInf (h : Shows s u r) (bounded : (Float.ofModel (.pack r)).isInf = false) :
    u < 2 ^ (1024 : Int) := by
  cases h with
  | zero => positivity
  | @finite m e pos canonical =>
    refine zpow_add_le canonical.bits (Int.not_lt.1 fun large => ?_)
    have infinite : UnpackedFloat.pack Format.binary64 (.finite s m e pos) =
        packComponents Format.binary64 s (-1#11) 0#52 := by
      rw [pack_finite, if_pos (by omega)]
      rfl
    have parts : (Float.Model.pack (.finite s m e pos)).unpack = .infinity s := by
      change UnpackedFloat.unpack Format.binary64 (UnpackedFloat.pack Format.binary64 _) = _
      rw [infinite, unpack_packComponents_eq, if_pos rfl, if_pos rfl]
    rw [Float.isInf, Float.Model.isInf, parts] at bounded
    cases bounded

end Shows

namespace Holds

variable {s s' : Sign} {x y : Float} {u v w : ℚ}

theorem shows (h : Holds s x u) : Shows s u x.toModel.unpack := by
  obtain ⟨r, shows, small, rfl⟩ := h
  rw [shows.unpack_pack small]
  exact shows

/-- Only one double has a given sign and magnitude. -/
theorem unique (h : Holds s x u) (h' : Holds s y u) : x = y := by
  obtain ⟨r, shows, -, rfl⟩ := h
  obtain ⟨r', shows', -, rfl⟩ := h'
  rw [shows.unique shows']

theorem isFinite (h : Holds s x u) : x.isFinite = true := by
  have shows := h.shows
  rw [Float.isFinite, Float.Model.isFinite]
  generalize x.toModel.unpack = r at shows
  cases shows <;> rfl

/-- A double has only one sign and one magnitude. -/
theorem eq_self (h : Holds s x u) : s = sign x ∧ u = magnitude x :=
  h.shows.inj (holds_self h.isFinite).shows

theorem neg (h : Holds s x u) : Holds (-s) (-x) u := by
  have shows := h.shows
  obtain ⟨-, -, small, -⟩ := h
  refine ⟨x.toModel.unpack.neg, ?_, small, rfl⟩
  generalize x.toModel.unpack = r at shows
  cases shows with
  | zero => exact .zero
  | finite pos canonical => exact .finite pos canonical

end Holds

end Courier.Double
