import Courier.Proofs.Decimal.Shortest
import Courier.Proofs.Json.Numbers

/-!
# Written numbers are passed over

A number that nobody asks for is passed over whatever its size and its precision. Whole numbers
and doubles are both written as numerals, and the scanner gets behind a numeral. A double is
written with its shortest digits, either with the decimal point in place or with an exponent. Its
whole part does not begin with a zero unless it is one, because only zero has the digits of zero.

## Main definitions

* `Json.Numeral`: the texts of numbers.

## Main results

* `Json.numeral_encodeInt`, `Json.numeral_write`: whole numbers and doubles are written as numerals.
* `Json.skipScalar_numeral`: a numeral is passed over.
-/

namespace Courier.Json

/-! ### Numerals -/

/-- The whole part of a numeral: a zero alone, or digits that do not begin with one. -/
inductive WholePart : Bytes → Prop where
  | zero : WholePart [0x30]
  | digits {b : UInt8} {d : Nat} {ds : Bytes} (value : digit? b = some d) (nonzero : d ≠ 0)
      (others : AllDigits ds) : WholePart (b :: ds)

/-- The fraction of a numeral, if it has one. -/
inductive FractionPart : Bytes → Prop where
  | none : FractionPart []
  | digits {b : UInt8} {ds : Bytes} (digits : AllDigits (b :: ds)) : FractionPart (0x2e :: b :: ds)

/-- The exponent of a numeral, if it has one. It is written with its sign. -/
inductive ExponentPart : Bytes → Prop where
  | none : ExponentPart []
  | digits {sign b : UInt8} {ds : Bytes} (signed : sign = 0x2b ∨ sign = 0x2d)
      (digits : AllDigits (b :: ds)) : ExponentPart (0x65 :: sign :: b :: ds)

/-- A numeral without its sign. -/
inductive Unsigned : Bytes → Prop where
  | parts {whole fraction exponent : Bytes} (w : WholePart whole) (f : FractionPart fraction)
      (e : ExponentPart exponent) : Unsigned (whole ++ (fraction ++ exponent))

/-- The text of a number. -/
inductive Numeral : Bytes → Prop where
  | plain {t : Bytes} (unsigned : Unsigned t) : Numeral t
  | minus {t : Bytes} (unsigned : Unsigned t) : Numeral (0x2d :: t)

theorem skipExponent_append {sign b : UInt8} {ds s : Bytes} (signed : sign = 0x2b ∨ sign = 0x2d)
    (digits : AllDigits (b :: ds)) (stops : Stops s) :
    skipExponent (sign :: b :: ds ++ s) = .ok s := by
  have dropped := dropDigits_append digits stops 0
  rcases signed with rfl | rfl <;> simp only [List.cons_append, skipExponent] <;>
    rw [← List.cons_append, dropped] <;> rfl

theorem skipFraction_exponent {exponent s : Bytes} (e : ExponentPart exponent) (closes : Closes s) :
    skipFraction (exponent ++ s) = .ok s := by
  cases e with
  | none => cases closes <;> rfl
  | digits signed digits => exact skipExponent_append signed digits closes.stops

theorem ExponentPart.stops {exponent s : Bytes} (e : ExponentPart exponent) (closes : Closes s) :
    Stops (exponent ++ s) := by
  cases e with
  | none => exact closes.stops
  | digits => exact fun b here => Option.some.inj here ▸ rfl

theorem skipFraction_append {fraction exponent s : Bytes} (f : FractionPart fraction)
    (e : ExponentPart exponent) (closes : Closes s) :
    skipFraction (fraction ++ (exponent ++ s)) = .ok s := by
  cases f with
  | none => exact skipFraction_exponent e closes
  | digits digits =>
    have dropped := dropDigits_append digits (e.stops closes) 0
    rw [List.cons_append]
    simp only [skipFraction, dropped]
    cases e with
    | none => cases closes <;> rfl
    | digits signed digits => exact skipExponent_append signed digits closes.stops

/-- The whole part of a numeral does not run on. -/
theorem stops_append {fraction exponent s : Bytes} (f : FractionPart fraction)
    (e : ExponentPart exponent) (closes : Closes s) : Stops (fraction ++ (exponent ++ s)) := by
  cases f with
  | none => exact e.stops closes
  | digits => exact fun b here => Option.some.inj here ▸ rfl

theorem skipNumber_unsigned {t s : Bytes} (unsigned : Unsigned t) (closes : Closes s) :
    skipNumber (t ++ s) = .ok s := by
  obtain ⟨w, f, e⟩ := unsigned
  rename_i whole fraction exponent
  have behind := skipFraction_append f e closes
  have stops := stops_append f e closes
  rw [List.append_assoc, List.append_assoc]
  generalize fraction ++ (exponent ++ s) = after at behind stops
  cases w with
  | zero =>
    cases after with
    | nil => exact behind
    | cons c after =>
      have other : digit? c = none := stops c rfl
      simp only [List.cons_append, List.nil_append, skipNumber, other]
      exact behind
  | digits value nonzero others =>
    have dropped := dropDigits_append others stops 0
    simp only [List.cons_append, skipNumber, value, dropped]
    exact behind

/-! ### Written numbers -/

theorem ascii_append (cs ds : List Char) : ascii (cs ++ ds) = ascii cs ++ ascii ds :=
  List.map_append

/-- Digits that begin with the first digit of a number are the whole part of a numeral, if they are
a single zero when the number is zero. -/
theorem wholePart_of_head (n : Nat) {cs : List Char} (digits : ∀ c ∈ cs, c.isDigit)
    (same : cs.head? = (Nat.toDigits 10 n).head?) (zero : n = 0 → cs = ['0']) :
    WholePart (ascii cs) := by
  by_cases small : n = 0
  · rw [zero small]
    exact .zero
  · obtain ⟨c, ds, shape, nonzero⟩ := toDigits_eq_cons (Nat.pos_of_ne_zero small)
    rw [shape] at same
    obtain ⟨es, rfl⟩ := List.head?_eq_some_iff.1 same
    have digit := digits c List.mem_cons_self
    have others : ∀ d ∈ es, d.isDigit := fun d here => digits d (List.mem_cons_of_mem c here)
    exact .digits (digit?_toUInt8 digit) (value_ne_zero digit nonzero) (allDigits_ascii others)

theorem wholePart_toDigits (n : Nat) : WholePart (ascii (Nat.toDigits 10 n)) :=
  wholePart_of_head n (fun _ => isDigit_toDigits) rfl fun zero => by rw [zero]; rfl

/-- Digits around a decimal point, which make up `number` without it. -/
structure Pointed (whole fraction : List Char) (number : Nat) : Prop where
  wholePart : WholePart (ascii whole)
  wholeDigits : ∀ c ∈ whole, c.isDigit
  nonempty : fraction ≠ []
  digits : ∀ c ∈ fraction, c.isDigit
  number : Nat.ofDigitChars 10 (whole ++ fraction) 0 = number

theorem Pointed.unsigned {w cs : List Char} {n : Nat} (h : Pointed w cs n) :
    Unsigned (ascii (w ++ '.' :: cs)) := by
  cases cs with
  | nil => exact absurd rfl h.nonempty
  | cons c cs =>
    have fraction : FractionPart (ascii ('.' :: c :: cs)) := .digits (allDigits_ascii h.digits)
    have unsigned := Unsigned.parts h.wholePart fraction .none
    rwa [List.append_nil, ← ascii_append] at unsigned

theorem isDigit_zeros {n : Int} {c : Char} (here : c ∈ Layout.zeros n) : c.isDigit := by
  rw [List.eq_of_mem_replicate here]
  rfl

theorem isDigit_zero : ∀ c ∈ ['0'], c.isDigit :=
  List.forall_mem_singleton.2 rfl

/-- Digits with the decimal point in place. The point of a whole number stands behind its digits,
and a zero follows. -/
theorem inPlace_pointed (n : Nat) {point : Int} (zero : n = 0 → point = 1) :
    ∃ (w cs : List Char) (j : Nat),
      floatLayout.inPlace (Nat.toDigits 10 n) point = w ++ '.' :: cs ∧
      Pointed w cs (10 ^ j * n) ∧ (j = 0 ∨ (Nat.toDigits 10 n).length + j = point + 1) ∧
      point + cs.length = (Nat.toDigits 10 n).length + j := by
  have some : 0 < (Nat.toDigits 10 n).length := Nat.length_toDigits_pos
  unfold Layout.inPlace
  split
  · next whole =>
    have digits : ∀ c ∈ Nat.toDigits 10 n ++ Layout.zeros (point - (Nat.toDigits 10 n).length),
        c.isDigit := fun c here => (List.mem_append.1 here).elim isDigit_toDigits isDigit_zeros
    refine ⟨_, ['0'], (point - (Nat.toDigits 10 n).length).toNat + 1, rfl,
      ⟨wholePart_of_head n digits ?_ fun small => ?_, digits, List.cons_ne_nil _ _, isDigit_zero,
        ?_⟩, .inr (by omega), ?_⟩
    · rw [List.head?_append, List.head?_eq_some_head Nat.toDigits_ne_nil, Option.some_or]
    · rw [zero small, small]
      rfl
    · rw [List.append_assoc, Nat.ofDigitChars_append, Nat.ofDigitChars_ten_toDigits, Layout.zeros,
        ← List.replicate_succ', Nat.ofDigitChars_replicate_zero]
    · rw [List.length_singleton]
      omega
  · next inside =>
    split
    · next positive =>
      have digits : ∀ c ∈ (Nat.toDigits 10 n).take point.toNat, c.isDigit :=
        fun c here => isDigit_toDigits (List.mem_of_mem_take here)
      refine ⟨_, _, 0, rfl, ⟨wholePart_of_head n digits ?_ fun small => ?_, digits, ?_,
        fun c here => isDigit_toDigits (List.mem_of_mem_drop here), ?_⟩, .inl rfl, ?_⟩
      · rw [List.head?_take, if_neg (by omega)]
      · -- The point of zero stands behind its only digit.
        refine absurd ?_ inside
        rw [zero small, small]
        decide
      · rw [← List.length_pos_iff, List.length_drop]
        omega
      · rw [List.take_append_drop, Nat.ofDigitChars_ten_toDigits, Nat.pow_zero, Nat.one_mul]
      · rw [List.length_drop]
        omega
    · refine ⟨['0'], _, 0, rfl, ⟨.zero, isDigit_zero, ?_, fun c here => ?_, ?_⟩, .inl rfl, ?_⟩
      · exact List.append_ne_nil_of_right_ne_nil _ Nat.toDigits_ne_nil
      · exact (List.mem_append.1 here).elim isDigit_zeros isDigit_toDigits
      · change Nat.ofDigitChars 10
          (List.replicate ((-point).toNat + 1) '0' ++ Nat.toDigits 10 n) 0 = _
        rw [Nat.ofDigitChars_append, Nat.ofDigitChars_replicate_zero, Nat.mul_zero,
          Nat.ofDigitChars_ten_toDigits, Nat.pow_zero, Nat.one_mul]
      · have length : (Layout.zeros (-point) ++ Nat.toDigits 10 n).length =
            (-point).toNat + (Nat.toDigits 10 n).length := by
          rw [List.length_append, Layout.zeros, List.length_replicate]
        change point + ((Layout.zeros (-point) ++ Nat.toDigits 10 n).length : Int) = _
        omega

theorem unsigned_inPlace (n : Nat) {point : Int} (zero : n = 0 → point = 1) :
    Unsigned (ascii (floatLayout.inPlace (Nat.toDigits 10 n) point)) := by
  obtain ⟨w, cs, j, shape, pointed, -⟩ := inPlace_pointed n zero
  rw [shape]
  exact pointed.unsigned

theorem wholePart_take (n : Nat) : WholePart (ascii ((Nat.toDigits 10 n).take 1)) := by
  refine wholePart_of_head n (fun c here => isDigit_toDigits (List.mem_of_mem_take here)) ?_
    fun zero => by rw [zero]; rfl
  rw [List.head?_take, if_neg (by decide)]

theorem fractionPart_drop (n : Nat) :
    FractionPart (ascii (if ((Nat.toDigits 10 n).drop 1).isEmpty then []
      else '.' :: (Nat.toDigits 10 n).drop 1)) := by
  have digits : ∀ c ∈ (Nat.toDigits 10 n).drop 1, c.isDigit :=
    fun c here => isDigit_toDigits (List.mem_of_mem_drop here)
  generalize (Nat.toDigits 10 n).drop 1 = others at digits
  cases others with
  | nil => exact .none
  | cons c cs =>
    have bytes : AllDigits (ascii (c :: cs)) := allDigits_ascii digits
    exact .digits bytes

theorem exponentPart_sign {sign : Char} (signed : sign = '+' ∨ sign = '-') (n : Nat) :
    ExponentPart (ascii ('e' :: sign :: Nat.toDigits 10 n)) := by
  have digits := allDigits_toDigits n
  obtain ⟨c, cs, shape⟩ := List.exists_cons_of_ne_nil (Nat.toDigits_ne_nil (n := n) (b := 10))
  rw [shape] at digits ⊢
  exact .digits (by rcases signed with rfl | rfl <;> decide) digits

theorem unsigned_scientific (n : Nat) (point : Int) :
    Unsigned (ascii (floatLayout.scientific (Nat.toDigits 10 n) point)) := by
  have exponent : ExponentPart (ascii ('e' :: (if point - 1 < 0 then ['-']
      else if floatLayout.plusSign then ['+'] else []) ++ Nat.toDigits 10 (point - 1).natAbs)) := by
    by_cases negative : point - 1 < 0
    · rw [if_pos negative]
      exact exponentPart_sign (.inr rfl) _
    · rw [if_neg negative]
      exact exponentPart_sign (.inl rfl) _
  have unsigned := Unsigned.parts (wholePart_take n) (fractionPart_drop n) exponent
  rwa [← ascii_append, ← ascii_append, ← List.append_assoc, ← List.append_assoc] at unsigned

/-- The position of the decimal point among the digits of a double. -/
def pointOf (x : Float) : Int :=
  (Nat.toDigits 10 (Decimal.ofFloat x).digits).length + (Decimal.ofFloat x).exponent

/-- The text of a double without its sign. -/
def unsignedText (x : Float) : List Char :=
  if floatLayout.positional (pointOf x) then
    floatLayout.inPlace (Nat.toDigits 10 (Decimal.ofFloat x).digits) (pointOf x)
  else floatLayout.scientific (Nat.toDigits 10 (Decimal.ofFloat x).digits) (pointOf x)

theorem write_eq (x : Float) :
    floatLayout.write x = if signBit x then '-' :: unsignedText x else unsignedText x :=
  rfl

theorem pointOf_zero {x : Float} (zero : (Decimal.ofFloat x).digits = 0) : pointOf x = 1 := by
  rw [pointOf, Decimal.exponent_ofFloat zero, zero]
  rfl

theorem unsigned_unsignedText (x : Float) : Unsigned (ascii (unsignedText x)) := by
  unfold unsignedText
  split
  · exact unsigned_inPlace _ pointOf_zero
  · exact unsigned_scientific _ _

/-- A double is written as a numeral. -/
theorem numeral_write (x : Float) : Numeral (ascii (floatLayout.write x)) := by
  rw [write_eq]
  split
  · exact .minus (unsigned_unsignedText x)
  · exact .plain (unsigned_unsignedText x)

/-- A whole number is written as a numeral. -/
theorem numeral_encodeInt (n : Int) : Numeral (encodeInt n) := by
  have digits := Unsigned.parts (wholePart_toDigits n.natAbs) .none .none
  rw [List.append_nil, List.append_nil] at digits
  unfold encodeInt
  by_cases negative : n < 0
  · rw [if_pos negative]
    exact .minus digits
  · rw [if_neg negative]
    exact .plain digits

/-! ### Values behind their first byte -/

/-- The ten digits. -/
def digitBytes : Bytes :=
  [0x30, 0x31, 0x32, 0x33, 0x34, 0x35, 0x36, 0x37, 0x38, 0x39]

theorem mem_digitBytes {b : UInt8} {d : Nat} (value : digit? b = some d) : b ∈ digitBytes := by
  have range : 48 ≤ b.toNat ∧ b.toNat ≤ 57 := by
    refine Decidable.byContradiction fun outside => ?_
    rw [digit?, if_neg outside] at value
    cases value
  simp only [digitBytes, List.mem_cons, List.not_mem_nil, or_false, ← UInt8.toNat_inj]
  simp only [UInt8.reduceToNat]
  omega

theorem skipScalar_digit (s : Bytes) :
    ∀ b ∈ digitBytes, skipScalar (b :: s) = skipNumber (b :: s) := by
  simp only [digitBytes, List.forall_mem_cons]
  exact ⟨rfl, rfl, rfl, rfl, rfl, rfl, rfl, rfl, rfl, rfl, List.forall_mem_nil _⟩

theorem Unsigned.head {t : Bytes} (unsigned : Unsigned t) :
    ∃ b s, t = b :: s ∧ b ∈ digitBytes := by
  obtain ⟨w, f, e⟩ := unsigned
  cases w with
  | zero => exact ⟨_, _, rfl, by decide⟩
  | digits value nonzero others => exact ⟨_, _, rfl, mem_digitBytes value⟩

/-- A numeral is passed over. -/
theorem skipScalar_numeral {t s : Bytes} (numeral : Numeral t) (closes : Closes s) :
    skipScalar (t ++ s) = .ok s := by
  cases numeral with
  | plain unsigned =>
    obtain ⟨b, r, rfl, digit⟩ := unsigned.head
    rw [List.cons_append, skipScalar_digit _ b digit, ← List.cons_append]
    exact skipNumber_unsigned unsigned closes
  | minus unsigned => exact skipNumber_unsigned unsigned closes

end Courier.Json
