import Courier.Proofs.Double.Assembly
import Courier.Proofs.Double.Products
import Courier.Proofs.Json.Records

/-!
# Written doubles are read as doubles

The text of a finite double is read again, if perhaps not as the same double: the digits make up a
significand that is rounded, and a power of ten by which it is multiplied or divided. A division
always gives a double. A product is refused when it is infinite, and the shortest digits of a
double make up a number that is too small for that. The double that is read is at most three units
in the last place away, and it is the same one if the digits and the power of ten are doubles
themselves. A double that is not finite has no numeral; it is written as `null`, which is read as
no number.

## Main definitions

* `Json.reading`: the digits and the power of ten that are read from the text of a double.
* `Json.Returns`: how close a double is to the one that is written.

## Main results

* `Json.readsAs_unsignedText`: the text of a double is read as its digits and their power of ten.
* `Json.returns_reading`: these are put together to a double that is close to the written one.
* `Json.Decoder.reads_float`: a finite double is read as a double that is close to it.
* `Json.Decoder.float_null`: a double that is not finite is refused.
-/

namespace Courier.Json

/-! ### Parts of numerals -/

variable {m : Nat} {e : Int} {ds s t : Bytes}

theorem readNumber_wholePart {w : Bytes} (whole : WholePart w) (stops : Stops t)
    (fits : significand 0 w < UInt64.size) (negative : Bool) :
    readNumber negative (w ++ t) = finishNumber negative (significand 0 w) 0 t := by
  have none_ : dropDigits 0 t = (0, t) := dropDigits_append AllDigits.nil stops 0
  cases whole with
  | zero =>
    cases t with
    | nil => rfl
    | cons c t =>
      have other : digit? c = none := stops c rfl
      simp only [List.cons_append, List.nil_append, readNumber, other]
      rfl
  | @digits b d ds value nonzero others =>
    have number : significand 0 (b :: ds) = significand d ds := by simp [significand, value]
    rw [number] at fits ⊢
    simp only [List.cons_append, readNumber, value, moreDigits_append others stops fits, none_]

/-- The digits behind a point lengthen the significand. -/
theorem finishNumber_point (negative : Bool) (digits : AllDigits ds) (nonempty : ds ≠ [])
    (stops : Stops t) (fits : significand m ds < UInt64.size) :
    finishNumber negative m 0 (0x2e :: (ds ++ t)) =
      finishFloat negative (significand m ds) (-ds.length) t := by
  have none_ : dropDigits 0 t = (0, t) := dropDigits_append AllDigits.nil stops 0
  have some_ : ¬ (0 + ds.length + 0 = 0) := by
    have := List.length_pos_iff.2 nonempty
    omega
  simp only [finishNumber, fractionPart, moreDigits_append digits stops fits, none_, if_neg some_]
  congr 1
  omega

theorem finishFloat_closes (negative : Bool) (m : Nat) (e : Int) (closes : Closes s) :
    finishFloat negative m e s = (assemble negative m e).map (·, s) := by
  cases closes <;> rfl

theorem foldl_digits (ds : Bytes) (n : Nat) :
    ds.foldl (fun (n : Int) c => n * 10 + (digit? c).getD 0) n = (significand n ds : Int) := by
  induction ds generalizing n with
  | nil => rfl
  | cons b ds ih => exact ih (n * 10 + (digit? b).getD 0)

theorem takeWhile_digits (digits : AllDigits ds) (stops : Stops s) :
    (ds ++ s).takeWhile (fun c => (digit? c).isSome) = ds := by
  rw [List.takeWhile_append_of_pos digits]
  cases s with
  | nil => exact List.append_nil ds
  | cons b s => simp [stops b rfl]

/-- The exponent of a numeral is read with its sign. -/
theorem finishFloat_exponent (negative : Bool) (m : Nat) (e : Int) {sign : UInt8}
    (signed : sign = 0x2b ∨ sign = 0x2d) (digits : AllDigits ds) (nonempty : ds ≠ [])
    (stops : Stops s) : finishFloat negative m e (0x65 :: sign :: (ds ++ s)) =
      (assemble negative m (if sign = 0x2d then e - significand 0 ds else e + significand 0 ds)).map
        (·, s) := by
  obtain ⟨b, ds, rfl⟩ := List.exists_cons_of_ne_nil nonempty
  obtain ⟨d, digit⟩ := digits.head
  have read : (b :: (ds ++ s)).takeWhile (fun c => (digit? c).isSome) = b :: ds :=
    takeWhile_digits digits stops
  have value : (b :: ds).foldl (fun (n : Int) c => n * 10 + (digit? c).getD 0) 0 =
      (significand 0 (b :: ds) : Int) := foldl_digits (b :: ds) 0
  have rest : (b :: (ds ++ s)).drop (b :: ds).length = s := List.drop_left
  rcases signed with rfl | rfl <;>
    simp only [finishFloat, exponentPart, List.cons_append, digit, Option.isNone_some, read, value,
      rest] <;> rfl

/-! ### Putting doubles together -/

/-- The shortest digits of a finite double and their power of ten, if it is not a fraction, make up
a finite product. -/
theorem isInf_ofFloat {x : Float} (finite : x.isFinite = true)
    (nonzero : (Decimal.ofFloat x).digits ≠ 0) (whole : 0 ≤ (Decimal.ofFloat x).exponent) :
    (Decimal.ofFloat x).exponent ≤ 308 ∧ ((UInt64.ofNat (Decimal.ofFloat x).digits).toFloat *
      powerOfTen (Decimal.ofFloat x).exponent.toNat).isInf = false := by
  have few := Decimal.digits_ofFloat_le x
  have bounds : Decimal.ofFloat x = ⟨17976931348623157, 292⟩ ∨
      (Decimal.ofFloat x).digits * 10 ^ (Decimal.ofFloat x).exponent.toNat ≤ Rounding.top := by
    rcases Int.lt_or_eq_of_le whole with positive | zero
    · exact Decimal.ofFloat_le finite positive
    · have small : 10 ^ 17 ≤ Rounding.top := by decide +kernel
      rw [← zero, Int.toNat_zero, Nat.pow_zero, Nat.mul_one]
      exact .inr (Nat.le_trans few small)
  rcases bounds with largest | small
  · rw [largest]
    decide +kernel
  · have pos := Nat.pos_of_ne_zero nonzero
    have most := Rounding.exponent_le pos small
    exact ⟨by omega, Double.isInf_mul_powerOfTen pos few small⟩

/-! ### Reading written doubles -/

/-- The text is read as digits and a power of ten, wherever a value ends behind it. -/
def ReadsAs (t : Bytes) (d : Decimal) : Prop :=
  ∀ negative s, Closes s →
    readNumber negative (t ++ s) = (assemble negative d.digits d.exponent).map (·, s)

theorem significand_append (m : Nat) (ds es : Bytes) :
    significand m (ds ++ es) = significand (significand m ds) es :=
  List.foldl_append

/-- Digits around a point are read up to their end: their number, and the fraction's length as the
exponent. -/
theorem readNumber_pointed {w cs : List Char} {n : Nat} (pointed : Pointed w cs n)
    (fits : n < UInt64.size) (stops : Stops t) (negative : Bool) :
    readNumber negative (ascii (w ++ '.' :: cs) ++ t) = finishFloat negative n (-cs.length) t := by
  have number : significand (significand 0 (ascii w)) (ascii cs) = n := by
    rw [← significand_append, ← ascii_append, significand_ascii, pointed.number]
    exact fun c here => (List.mem_append.1 here).elim (pointed.wholeDigits c) (pointed.digits c)
  have shorter : significand 0 (ascii w) ≤ n := number ▸ le_significand _ _
  have point : Stops (0x2e :: (ascii cs ++ t)) := fun b here => Option.some.inj here ▸ rfl
  have nonempty : ascii cs ≠ [] := mt List.map_eq_nil_iff.1 pointed.nonempty
  have length : (ascii cs).length = cs.length := List.length_map ..
  rw [ascii_append, List.append_assoc]
  change readNumber negative (ascii w ++ (0x2e :: (ascii cs ++ t))) = _
  rw [readNumber_wholePart pointed.wholePart point (Nat.lt_of_le_of_lt shorter fits),
    finishNumber_point negative (allDigits_ascii pointed.digits) nonempty stops
      (number.symm ▸ fits), number, length]

/-- The digits around the decimal point: a whole number is filled up with zeros, and a zero follows
behind the point. -/
def pointed (d : Decimal) : Decimal :=
  if 0 ≤ d.exponent then ⟨10 ^ (d.exponent.toNat + 1) * d.digits, -1⟩ else d

theorem digits_pointed_lt {d : Decimal} (few : d.digits ≤ 10 ^ 17)
    (short : (Nat.toDigits 10 d.digits).length + d.exponent ≤ 16) :
    (pointed d).digits < UInt64.size := by
  unfold pointed
  split
  · next whole =>
    have digits : d.digits < 10 ^ (Nat.toDigits 10 d.digits).length :=
      (Nat.length_toDigits_le_iff (by decide) Nat.length_toDigits_pos).1 (Nat.le_refl _)
    calc 10 ^ (d.exponent.toNat + 1) * d.digits
        < 10 ^ (d.exponent.toNat + 1) * 10 ^ (Nat.toDigits 10 d.digits).length :=
          Nat.mul_lt_mul_of_pos_left digits (Nat.pow_pos (by decide))
      _ = 10 ^ (d.exponent.toNat + 1 + (Nat.toDigits 10 d.digits).length) := (Nat.pow_add ..).symm
      _ ≤ 10 ^ 17 := Nat.pow_le_pow_right (by decide) (by omega)
      _ < UInt64.size := by decide
  · exact Nat.lt_of_le_of_lt few (by decide)

/-- Digits with the decimal point in place are read as the digits around the point. -/
theorem readsAs_inPlace {d : Decimal} (zero : d.digits = 0 → d.exponent = 0)
    (fits : (pointed d).digits < UInt64.size) :
    ReadsAs (ascii (floatLayout.inPlace (Nat.toDigits 10 d.digits)
      ((Nat.toDigits 10 d.digits).length + d.exponent))) (pointed d) := by
  have single (none_ : d.digits = 0) : (Nat.toDigits 10 d.digits).length + d.exponent = 1 := by
    rw [zero none_, none_]
    rfl
  obtain ⟨w, cs, j, shape, around, zeros, length⟩ := inPlace_pointed d.digits single
  have some_ := List.length_pos_iff.2 around.nonempty
  have same : pointed d = ⟨10 ^ j * d.digits, -cs.length⟩ := by
    unfold pointed
    split
    · obtain rfl : j = d.exponent.toNat + 1 := by omega
      congr 1
      omega
    · obtain rfl : j = 0 := by omega
      rw [Nat.pow_zero, Nat.one_mul, show -(cs.length : Int) = d.exponent by omega]
  rw [same] at fits ⊢
  intro negative s closes
  rw [shape, readNumber_pointed around fits closes.stops, finishFloat_closes _ _ _ closes]

/-- The first digit and the others behind a point are read up to the mark of the exponent. -/
theorem readNumber_leading {n : Nat} (fits : n < UInt64.size) (negative : Bool) (t : Bytes) :
    readNumber negative (ascii ((Nat.toDigits 10 n).take 1 ++
        (if ((Nat.toDigits 10 n).drop 1).isEmpty then [] else '.' :: (Nat.toDigits 10 n).drop 1)) ++
      0x65 :: t) = finishFloat negative n (1 - (Nat.toDigits 10 n).length) (0x65 :: t) := by
  have stops : Stops (0x65 :: t) := fun b here => Option.some.inj here ▸ rfl
  have whole := wholePart_take n
  have wholeDigits : ∀ c ∈ (Nat.toDigits 10 n).take 1, c.isDigit :=
    fun c here => isDigit_toDigits (List.mem_of_mem_take here)
  have digits : ∀ c ∈ (Nat.toDigits 10 n).drop 1, c.isDigit :=
    fun c here => isDigit_toDigits (List.mem_of_mem_drop here)
  have number : Nat.ofDigitChars 10 ((Nat.toDigits 10 n).take 1 ++ (Nat.toDigits 10 n).drop 1) 0 =
      n := by rw [List.take_append_drop, Nat.ofDigitChars_ten_toDigits]
  have length : ((Nat.toDigits 10 n).drop 1).length = (Nat.toDigits 10 n).length - 1 :=
    List.length_drop
  have some_ : 0 < (Nat.toDigits 10 n).length := Nat.length_toDigits_pos
  generalize (Nat.toDigits 10 n).take 1 = w at whole wholeDigits number
  generalize (Nat.toDigits 10 n).drop 1 = cs at digits number length
  cases cs with
  | nil =>
    rw [List.append_nil] at number
    rw [List.isEmpty_nil, if_pos rfl, List.append_nil]
    have value : significand 0 (ascii w) = n := by rw [significand_ascii wholeDigits, number]
    have behind : finishNumber negative n 0 (0x65 :: t) = finishFloat negative n 0 (0x65 :: t) :=
      rfl
    have single : (Nat.toDigits 10 n).length = 1 := by
      rw [List.length_nil] at length
      omega
    rw [readNumber_wholePart whole stops (value.symm ▸ fits), value, behind, single]
    rfl
  | cons c cs =>
    have pointed : Pointed w (c :: cs) n :=
      ⟨whole, wholeDigits, List.cons_ne_nil c cs, digits, number⟩
    rw [List.isEmpty_cons, if_neg Bool.false_ne_true, readNumber_pointed pointed fits stops]
    rw [length, show (-((Nat.toDigits 10 n).length - 1 : Nat) : Int) =
      1 - (Nat.toDigits 10 n).length by omega]

/-- The exponent is written with its sign. -/
theorem scientific_eq (ds : List Char) (point : Int) :
    ∃ sign : UInt8, (sign = 0x2b ∧ 0 ≤ point - 1 ∨ sign = 0x2d ∧ point - 1 < 0) ∧
      ascii (floatLayout.scientific ds point) =
        ascii (ds.take 1 ++ (if (ds.drop 1).isEmpty then [] else '.' :: ds.drop 1)) ++
          0x65 :: sign :: ascii (Nat.toDigits 10 (point - 1).natAbs) := by
  by_cases below : point - 1 < 0
  · refine ⟨0x2d, .inr ⟨rfl, below⟩, ?_⟩
    simp only [Layout.scientific, if_pos below, ascii_append, List.append_assoc]
    rfl
  · refine ⟨0x2b, .inl ⟨rfl, Int.not_lt.1 below⟩, ?_⟩
    simp only [Layout.scientific, if_neg below, ascii_append, List.append_assoc]
    rfl

theorem readsAs_scientific {d : Decimal} (fits : d.digits < UInt64.size) :
    ReadsAs (ascii (floatLayout.scientific (Nat.toDigits 10 d.digits)
      ((Nat.toDigits 10 d.digits).length + d.exponent))) d := by
  obtain ⟨n, e⟩ := d
  obtain ⟨sign, signed, shape⟩ := scientific_eq (Nat.toDigits 10 n) ((Nat.toDigits 10 n).length + e)
  intro negative s closes
  have digits := allDigits_toDigits ((Nat.toDigits 10 n).length + e - 1).natAbs
  have value : significand 0 (ascii (Nat.toDigits 10 ((Nat.toDigits 10 n).length + e - 1).natAbs)) =
      ((Nat.toDigits 10 n).length + e - 1).natAbs := by
    rw [significand_ascii fun _ => isDigit_toDigits, Nat.ofDigitChars_ten_toDigits]
  have nonempty : ascii (Nat.toDigits 10 ((Nat.toDigits 10 n).length + e - 1).natAbs) ≠ [] :=
    mt List.map_eq_nil_iff.1 Nat.toDigits_ne_nil
  have mark : sign = 0x2b ∨ sign = 0x2d := signed.imp And.left And.left
  dsimp only at fits ⊢
  rw [shape, List.append_assoc, List.cons_append, List.cons_append, readNumber_leading fits,
    finishFloat_exponent negative n _ mark digits nonempty closes.stops, value]
  have exponent : (if sign = 0x2d then
        1 - ((Nat.toDigits 10 n).length : Int) - ((Nat.toDigits 10 n).length + e - 1).natAbs
      else 1 - ((Nat.toDigits 10 n).length : Int) + ((Nat.toDigits 10 n).length + e - 1).natAbs) =
      e := by
    rcases signed with ⟨rfl, above⟩ | ⟨rfl, below⟩
    · rw [if_neg (by decide)]
      omega
    · rw [if_pos rfl]
      omega
  rw [exponent]

/-- The digits and the power of ten that are read from the text of a double without its sign. -/
def reading (x : Float) : Decimal :=
  if floatLayout.positional (pointOf x) then pointed (Decimal.ofFloat x) else Decimal.ofFloat x

theorem digits_reading_lt (x : Float) : (reading x).digits < UInt64.size := by
  have few := Decimal.digits_ofFloat_le x
  unfold reading
  split
  · next positional =>
    have range := Bool.and_eq_true_iff.1 positional
    exact digits_pointed_lt few (of_decide_eq_true range.2)
  · exact Nat.lt_of_le_of_lt few (by decide)

/-- The text of a double is read as its digits and their power of ten, in either layout. -/
theorem readsAs_unsignedText (x : Float) : ReadsAs (ascii (unsignedText x)) (reading x) := by
  have fits := digits_reading_lt x
  unfold unsignedText reading at *
  split at fits
  · next positional =>
    rw [if_pos positional, if_pos positional]
    exact readsAs_inPlace Decimal.exponent_ofFloat fits
  · next scientific =>
    rw [if_neg scientific, if_neg scientific]
    exact readsAs_scientific fits

/-! ### The double that is read -/

/-- What a double is read as is finite, has its sign, and is at most three units in the last place
away. It is the same double if the digits that are read, and the power of ten, are doubles. -/
structure Returns (x y : Float) : Prop where
  finite : y.isFinite = true
  signed : signBit y = signBit x
  near : |Double.magnitude y - Double.magnitude x| ≤ 3 * 2 ^ (binaryParts x).2
  exact : (reading x).digits ≤ 2 ^ 53 → (reading x).exponent.natAbs ≤ 22 → y = x

theorem reading_of_zero {x : Float} (zero : (Decimal.ofFloat x).digits = 0) :
    reading x = ⟨0, -1⟩ := by
  have positional : floatLayout.positional 1 = true := rfl
  rw [reading, pointOf_zero zero, if_pos positional, pointed, Decimal.exponent_ofFloat zero, zero]
  rfl

/-- Only zero is read with no digits. -/
theorem exponent_reading {x : Float} (none_ : (reading x).digits = 0) :
    (reading x).exponent = -1 := by
  have zero : (Decimal.ofFloat x).digits = 0 := by
    unfold reading pointed at none_
    split at none_
    · split at none_
      · exact (Nat.mul_eq_zero.1 none_).resolve_left (Nat.ne_of_gt (Nat.pow_pos (by decide)))
      · exact none_
    · exact none_
  rw [reading_of_zero zero]

/-- A whole number that is not filled up makes up a finite product. -/
theorem bounded_reading {x : Float} (finite : x.isFinite = true) :
    Double.Bounded (reading x).digits (reading x).exponent := by
  intro whole
  have plain : reading x = Decimal.ofFloat x := by
    unfold reading pointed at *
    split at whole
    · next positional =>
      split at whole
      · have whole : (0 : Int) ≤ -1 := whole
        exact absurd whole (by decide)
      · next below => exact absurd whole below
    · next scientific => exact if_neg scientific
  have nonzero : (Decimal.ofFloat x).digits ≠ 0 := by
    intro zero
    rw [reading_of_zero zero] at whole
    exact absurd whole (by decide)
  rw [plain] at whole ⊢
  exact isInf_ofFloat finite nonzero whole

/-- Filling up changes the digits and the power of ten, but not the number. -/
theorem value_reading (x : Float) :
    ((reading x).digits : ℚ) * 10 ^ (reading x).exponent = Double.written x := by
  unfold reading pointed Double.written
  split
  · split
    · next whole =>
      obtain ⟨n, exponent⟩ := Int.eq_ofNat_of_zero_le whole
      rw [exponent, Int.toNat_natCast, zpow_natCast, zpow_neg_one]
      push_cast
      ring
    · rfl
  · rfl

/-- What is read from the text of a finite double is put together to a double that is close to
it. -/
theorem returns_reading {x : Float} (finite : x.isFinite = true) :
    ∃ y, Returns x y ∧
      assemble (signBit x) (reading x).digits (reading x).exponent = .ok (.float y) := by
  have short (none_ : (reading x).digits = 0) : (reading x).exponent.natAbs ≤ 22 := by
    rw [exponent_reading none_]
    decide
  obtain ⟨u, ⟨z, held, assembled⟩, near, exact⟩ := Double.gives_written (digits_reading_lt x)
    (bounded_reading finite) short (value_reading x)
  have signed : Double.Holds (Double.sign x) (if signBit x then -z else z) u := by
    unfold Double.sign
    cases signBit x
    · exact held
    · exact held.neg
  obtain ⟨sign, magnitude⟩ := signed.eq_self
  refine ⟨_, ⟨signed.isFinite, Double.signBit_eq sign.symm, ?_, fun few short => ?_⟩,
    assembled (signBit x)⟩
  · rw [← magnitude]
    exact near
  · have same := exact few short
    subst same
    exact signed.unique (Double.holds_self finite)

theorem scalar_write {x : Float} (finite : x.isFinite = true) :
    ∃ y, Returns x y ∧ ∀ s, Closes s →
      scalar (ascii (floatLayout.write x) ++ s) = .ok (.number (.float y), s) := by
  have reads := readsAs_unsignedText x
  obtain ⟨y, back, together⟩ := returns_reading finite
  refine ⟨y, back, fun s closes => ?_⟩
  rw [write_eq]
  split
  · next negative =>
    rw [negative] at together
    change (readNumber true (ascii (unsignedText x) ++ s)).map _ = _
    rw [reads true s closes, together]
    rfl
  · next positive =>
    rw [Bool.eq_false_iff.2 positive] at together
    obtain ⟨b, r, shape, digit⟩ := (unsigned_unsignedText x).head
    rw [shape, List.cons_append, scalar_digit _ b digit, ← List.cons_append, ← shape,
      reads false s closes, together]
    rfl

namespace Decoder

/-- A finite double is read as a double that is close to it. -/
theorem reads_float {x : Float} (finite : x.isFinite = true) :
    ∃ y, Returns x y ∧ ∀ depth, float.Reads depth (.number (.float x)) y := by
  obtain ⟨y, back, read⟩ := scalar_write finite
  refine ⟨y, back, fun depth s closes => ?_⟩
  have space : skipSpace (ascii (floatLayout.write x) ++ s) = ascii (floatLayout.write x) ++ s := by
    obtain ⟨b, r, shape, starts⟩ := (numeral_write x).starts
    rw [shape, List.cons_append, skipSpace_cons starts.1]
  rw [encode, encodeNumber, if_pos finite, float, space, read s closes]
  rfl

/-- A double that is not finite is refused. -/
theorem float_null {x : Float} (special : x.isFinite = false) (depth : Nat) (s : Bytes) :
    float depth ((Json.number (.float x)).encode ++ s) = .error (.wrongType .null "f64") := by
  rw [encode, encodeNumber, special, if_neg Bool.false_ne_true]
  rfl

end Decoder

end Courier.Json
