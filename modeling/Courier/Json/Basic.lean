import Courier.Bytes
import Courier.Decimal.Layout

/-!
# JSON values and their text

A value is written compactly. Text keeps every character but the quote, the backslash and the
control characters; whole numbers are written in full, and doubles with their shortest digits.

## Main definitions

* `Json`: a value. An object keeps its members in the order in which they are written.
* `Json.encode`: the bytes of the written form.
* `Json.text`: the written form as text.
* `Json.floatLayout`: how doubles are written.
-/

namespace Courier

/-- A number: a whole number of at most 64 bits, or a double. -/
inductive Number where
  | whole (n : Int)
  | float (x : Float)
  deriving DecidableEq

/-- A JSON value. -/
inductive Json where
  | null
  | bool (b : Bool)
  | number (n : Number)
  | string (s : String)
  | array (items : List Json)
  | object (members : List (String × Json))

namespace Json

/-- Doubles between `1e-5` and `1e16` have their point in place, others an exponent with a sign;
no double looks like a whole number. -/
def floatLayout : Layout where
  positional point := -5 < point && point ≤ 16
  wholePoint := true
  plusSign := true

/-- The ASCII bytes of characters. -/
def ascii (cs : List Char) : Bytes :=
  cs.map Char.toUInt8

/-- A hexadecimal digit in lower case. -/
def hexDigit (n : Nat) : UInt8 :=
  if n < 10 then UInt8.ofNat (n + 48) else UInt8.ofNat (n + 87)

/-- A byte of a text between quotes. Only ASCII bytes are escaped, so characters of more than one
byte stay whole. -/
def escapeByte (b : UInt8) : Bytes :=
  if b = 0x22 then [0x5c, 0x22]
  else if b = 0x5c then [0x5c, 0x5c]
  else if b = 0x08 then [0x5c, 0x62]
  else if b = 0x0c then [0x5c, 0x66]
  else if b = 0x0a then [0x5c, 0x6e]
  else if b = 0x0d then [0x5c, 0x72]
  else if b = 0x09 then [0x5c, 0x74]
  else if b < 0x20 then
    [0x5c, 0x75, 0x30, 0x30, hexDigit (b.toNat / 16), hexDigit (b.toNat % 16)]
  else [b]

/-- A text between quotes. -/
def encodeString (s : String) : Bytes :=
  0x22 :: (Bytes.ofText s).flatMap escapeByte ++ [0x22]

/-- A whole number. -/
def encodeInt (n : Int) : Bytes :=
  ascii ((if n < 0 then ['-'] else []) ++ Nat.toDigits 10 n.natAbs)

/-- A number. A double that is not finite has no written form and becomes `null`. -/
def encodeNumber : Number → Bytes
  | .whole n => encodeInt n
  | .float x => if x.isFinite then ascii (floatLayout.write x) else ascii ['n', 'u', 'l', 'l']

mutual

/-- The bytes of the written form. -/
def encode : Json → Bytes
  | null => ascii ['n', 'u', 'l', 'l']
  | bool true => ascii ['t', 'r', 'u', 'e']
  | bool false => ascii ['f', 'a', 'l', 's', 'e']
  | number n => encodeNumber n
  | string s => encodeString s
  | array [] => [0x5b, 0x5d]
  | array (x :: xs) => 0x5b :: encode x ++ encodeItems xs
  | object [] => [0x7b, 0x7d]
  | object ((k, x) :: ms) => 0x7b :: encodeString k ++ 0x3a :: encode x ++ encodeMembers ms

/-- The items behind the first one, and the bracket that ends the array. -/
def encodeItems : List Json → Bytes
  | [] => [0x5d]
  | x :: xs => 0x2c :: encode x ++ encodeItems xs

/-- The members behind the first one, and the brace that ends the object. -/
def encodeMembers : List (String × Json) → Bytes
  | [] => [0x7d]
  | (k, x) :: ms => 0x2c :: encodeString k ++ 0x3a :: encode x ++ encodeMembers ms

end

/-- The written form as text. -/
def text (v : Json) : String :=
  (Bytes.text? v.encode).getD ""

/-- A whole number as a value. -/
def int (n : Int) : Json :=
  number (.whole n)

/-- A natural number as a value. -/
def nat (n : Nat) : Json :=
  number (.whole n)

/-- A text or `null`. -/
def optionString : Option String → Json
  | some s => string s
  | none => null

end Json

end Courier
