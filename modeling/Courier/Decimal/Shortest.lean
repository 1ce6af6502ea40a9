import Courier.Decimal.Reading

/-!
# Shortest decimal digits of a double

A double stands for the interval of real numbers that round to it. Its shortest digits are
those of the coarsest decimal grid that has a point in this interval, and of the two grid points
next to the double the nearer one, the even one on a tie.

## Main definitions

* `Decimal`: a number `digits · 10 ^ exponent`.
* `Rounding`: the interval of a positive double, over one denominator.
* `Decimal.ofFloat`: the shortest digits of the magnitude of a finite double.
-/

namespace Courier

/-- The number `digits · 10 ^ exponent`. -/
structure Decimal where
  digits : Nat
  exponent : Int
  deriving DecidableEq, Repr

/-- The real numbers that round to one positive double: the double is `mid / den`, its interval
reaches from `low / den` to `high / den`, and the ends belong to it when `closed`. -/
structure Rounding where
  low : Nat
  mid : Nat
  high : Nat
  den : Nat
  closed : Bool
  deriving DecidableEq, Repr

/-- The value of the leading bit of a significand, which is not stored. -/
def hiddenBit : Nat :=
  4503599627370496

namespace Rounding

/-- The interval of `significand · 2 ^ exponent`. Below a power of two the next double is only
half as far away, except where the doubles are evenly spaced down to zero. -/
def ofBinary (significand : Nat) (exponent : Int) : Rounding :=
  let scale := Nat.pow 2 (exponent - 2).toNat
  let below := if significand = hiddenBit ∧ exponent > -1074 then 1 else 2
  { low := (4 * significand - below) * scale
    mid := 4 * significand * scale
    high := (4 * significand + 2) * scale
    den := Nat.pow 2 (2 - exponent).toNat
    closed := significand % 2 = 0 }

/-- Whether `d · 10 ^ e` rounds to the double. -/
def contains (r : Rounding) (d : Nat) (e : Int) : Bool :=
  let point := d * Nat.pow 10 e.toNat * r.den
  let scale := Nat.pow 10 (-e).toNat
  if r.closed then r.low * scale ≤ point ∧ point ≤ r.high * scale
  else r.low * scale < point ∧ point < r.high * scale

/-- The last multiple of `10 ^ e` that does not exceed the double, as a multiple. -/
def floor (r : Rounding) (e : Int) : Nat :=
  r.mid * Nat.pow 10 (-e).toNat / (r.den * Nat.pow 10 e.toNat)

/-- Of `d · 10 ^ e` below and `(d + 1) · 10 ^ e` above the double, the multiple that is nearer;
the even one on a tie. -/
def nearer (r : Rounding) (d : Nat) (e : Int) : Nat :=
  let unit := Nat.pow 10 e.toNat * r.den
  let mid := r.mid * Nat.pow 10 (-e).toNat
  let below := mid - d * unit
  let above := (d + 1) * unit - mid
  if below < above then d
  else if above < below then d + 1
  else if d % 2 = 0 then d else d + 1

/-- The multiple of `10 ^ e` that rounds to the double and is nearest to it. -/
def onGrid? (r : Rounding) (e : Int) : Option Nat :=
  let d := r.floor e
  match r.contains d e, r.contains (d + 1) e with
  | true, true => some (r.nearer d e)
  | true, false => some d
  | false, true => some (d + 1)
  | false, false => none

/-- The number `k` with `10 ^ (k - 1) ≤ mid / den < 10 ^ k`. -/
def magnitude (r : Rounding) : Int :=
  if r.den ≤ r.mid then (Nat.toDigits 10 (r.mid / r.den)).length
  else
    let k := (Nat.toDigits 10 (r.den / r.mid)).length
    if r.mid * Nat.pow 10 (k - 1) = r.den then 2 - k else 1 - k

/-- The point of the coarsest grid with a point that rounds to the double. Seventeen digits
always suffice; a point on the coarsest grid of all may be the next power of ten. -/
def shortest (r : Rounding) : Decimal :=
  let top := r.magnitude
  let found := (List.range 17).findSome? fun (k : Nat) =>
    let e := top - (k + 1)
    (r.onGrid? e).map fun d => if d % 10 = 0 then ⟨d / 10, e + 1⟩ else (⟨d, e⟩ : Decimal)
  found.getD ⟨0, 0⟩

end Rounding

/-- The significand and the exponent of two of the magnitude of a finite double. -/
def binaryParts (x : Float) : Nat × Int :=
  let bits := x.toBits.toNat
  let exponent : Nat := bits / hiddenBit % 2048
  let fraction : Nat := bits % hiddenBit
  if exponent = 0 then (fraction, -1074) else (fraction + hiddenBit, (exponent : Int) - 1075)

/-- Whether the sign bit of a double is set. -/
def signBit (x : Float) : Bool :=
  x.toBits.toNat / int64Limit = 1

/-- The shortest decimal that reads back as the magnitude of the finite double `x`; zero has the
single digit `0`. -/
def Decimal.ofFloat (x : Float) : Decimal :=
  let (significand, exponent) := binaryParts x
  if significand = 0 then ⟨0, 0⟩ else (Rounding.ofBinary significand exponent).shortest

end Courier
