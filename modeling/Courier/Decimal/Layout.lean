import Courier.Decimal.Shortest

/-!
# Layout of decimal texts

The digits of a double are chosen by `Decimal.ofFloat`; a layout says how they are written down:
with a decimal point in place, or as one digit, a fraction and an exponent.

## Main definitions

* `Layout`: the decisions of one text format.
* `Layout.write`: the text of a finite double in a layout.
* `Layout.plain`: a layout without exponents.
-/

namespace Courier

/-- How a format writes the digits of a double. -/
structure Layout where
  /-- Whether a number whose decimal point stands after `k` of its digits is written in place. -/
  positional : Int → Bool
  /-- Whether a whole number carries a fraction of `.0`. -/
  wholePoint : Bool
  /-- Whether a positive exponent carries a sign. -/
  plusSign : Bool

namespace Layout

/-- As many zeros as `n` says, none when it is negative. -/
def zeros (n : Int) : List Char :=
  List.replicate n.toNat '0'

/-- The digits with the decimal point in place, `point` digits from the left. -/
def inPlace (l : Layout) (digits : List Char) (point : Int) : List Char :=
  if digits.length ≤ point then
    digits ++ zeros (point - digits.length) ++ (if l.wholePoint then ['.', '0'] else [])
  else if 0 < point then
    digits.take point.toNat ++ '.' :: digits.drop point.toNat
  else
    '0' :: '.' :: zeros (-point) ++ digits

/-- One digit, the others as a fraction, and the exponent of ten. -/
def scientific (l : Layout) (digits : List Char) (point : Int) : List Char :=
  let fraction := digits.drop 1
  let exponent := point - 1
  digits.take 1 ++ (if fraction.isEmpty then [] else '.' :: fraction) ++
    'e' :: (if exponent < 0 then ['-'] else if l.plusSign then ['+'] else []) ++
    Nat.toDigits 10 exponent.natAbs

/-- The text of a finite double. -/
def write (l : Layout) (x : Float) : List Char :=
  let d := Decimal.ofFloat x
  let digits := Nat.toDigits 10 d.digits
  let point := digits.length + d.exponent
  let body := if l.positional point then l.inPlace digits point else l.scientific digits point
  if signBit x then '-' :: body else body

/-- Numbers for people: every number in place, whole numbers without a fraction. -/
def plain : Layout where
  positional _ := true
  wholePoint := false
  plusSign := false

/-- Numbers for people that shall not look like integers: every number in place, whole numbers
with a fraction of `.0`. -/
def pointed : Layout := { plain with wholePoint := true }

end Layout

end Courier
