/-!
# Reading decimals

A decimal text is a sign, digits with at most one point among or beside them, and perhaps an
exponent. It stands for the double next to its value. The words for infinity and for what is no
number are read as well, in upper or lower case.

A natural number is read from digits, perhaps with a plus in front of them. The integers in texts
and settings have 64 bits, one of them for the sign.

## Main definitions

* `int64Limit`: the first natural number that is too large.
* `FitsInt64`: the integers that fit.
* `Decimal.float?`: the double that a text stands for.
* `Decimal.natural?`: the natural number below a limit that a text stands for.
-/

namespace Courier

/-- The first natural number that does not fit 64 bits with a sign. -/
def int64Limit : Nat :=
  9223372036854775808

/-- An integer fits 64 bits with a sign. -/
def FitsInt64 (n : Int) : Prop :=
  -9223372036854775808 ≤ n ∧ n ≤ 9223372036854775807

instance : DecidablePred FitsInt64 := fun n =>
  inferInstanceAs (Decidable (-9223372036854775808 ≤ n ∧ n ≤ 9223372036854775807))

namespace Decimal

/-- The value of a text of digits. -/
def digitsValue (cs : List Char) : Nat :=
  cs.foldl (fun n c => 10 * n + (c.toNat - '0'.toNat)) 0

/-- Splits a text into its sign, true for a minus, and the rest. -/
def splitSign : List Char → Bool × List Char
  | '-' :: cs => (true, cs)
  | '+' :: cs => (false, cs)
  | cs => (false, cs)

/-- The exponent at the end of a decimal, zero if there is none. -/
def exponent? : List Char → Option Int
  | [] => some 0
  | c :: cs =>
    let (negative, digits) := splitSign cs
    if (c = 'e' ∨ c = 'E') ∧ !digits.isEmpty ∧ digits.all Char.isDigit then
      let n : Int := digitsValue digits
      some (if negative then -n else n)
    else none

/-- The exponents of ten beyond which every double is zero or infinite, whatever its digits, when
there are at most `digits` of them. -/
def exponentBound (digits : Nat) : Int :=
  400 + digits

/-- The double next to `m · 10 ^ e`, where `m` has at most `digits` digits. -/
def nearest (m : Nat) (digits : Nat) (e : Int) : Float :=
  if m = 0 ∨ e < -exponentBound digits then 0.0
  else if exponentBound digits < e then 1.0 / 0.0
  else Float.ofScientific m (e < 0) e.natAbs

/-- The double of a decimal without a sign. -/
def magnitude? (cs : List Char) : Option Float :=
  let whole := cs.takeWhile Char.isDigit
  let rest := cs.dropWhile Char.isDigit
  let (fraction, rest) := match rest with
    | '.' :: rest => (rest.takeWhile Char.isDigit, rest.dropWhile Char.isDigit)
    | rest => ([], rest)
  let digits := whole ++ fraction
  if digits.isEmpty then none
  else (exponent? rest).map fun e =>
    nearest (digitsValue digits) digits.length (e - fraction.length)

/-- The double of a word. -/
def word? (cs : List Char) : Option Float :=
  match String.ofList (cs.map Char.toLower) with
  | "inf" | "infinity" => some (1.0 / 0.0)
  | "nan" => some (0.0 / 0.0)
  | _ => none

/-- The double that a text stands for. -/
def float? (s : String) : Option Float :=
  let (negative, cs) := splitSign s.toList
  (word? cs <|> magnitude? cs).map fun x => if negative then -x else x

/-- The natural number below `limit` that a text stands for. -/
def natural? (limit : Nat) (s : String) : Option Nat :=
  let digits := match s.toList with
    | '+' :: cs => cs
    | cs => cs
  if digits.isEmpty ∨ !digits.all Char.isDigit then none
  else
    let n := digitsValue digits
    if n < limit then some n else none

end Decimal

end Courier
