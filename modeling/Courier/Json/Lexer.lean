import Courier.Decimal.Reading
import Courier.Json.Fault

/-!
# Lexemes of JSON texts

Scanners for the words, strings and numbers of a JSON text. Each takes the bytes from a lexeme
on and gives the lexeme and the bytes behind it. A value that nobody asks for is passed over:
its brackets are matched, but its numbers are not computed and its strings need not be UTF-8.

## Main definitions

* `Json.skipSpace`: the text without leading white space.
* `Json.readWord`, `Json.readString`, `Json.readNumber`: a fixed word, the text of a string,
  a number.
* `Json.skipValue`: the text behind a value.
-/

namespace Courier.Json

/-- The four bytes that may stand between lexemes. -/
def isSpace (b : UInt8) : Bool :=
  b = 0x20 || b = 0x0a || b = 0x09 || b = 0x0d

/-- The text without leading white space. -/
def skipSpace (s : Bytes) : Bytes :=
  s.dropWhile isSpace

/-- Reads a fixed word. -/
def readWord : Bytes → Bytes → Except Fault Bytes
  | [], s => .ok s
  | _ :: _, [] => .error .ended
  | w :: ws, b :: s => if w = b then readWord ws s else .error .malformed

/-! ### Strings -/

/-- The value of a hexadecimal digit. -/
def hexValue? (b : UInt8) : Option Nat :=
  let n := b.toNat
  if 48 ≤ n ∧ n ≤ 57 then some (n - 48)
  else if 97 ≤ n ∧ n ≤ 102 then some (n - 87)
  else if 65 ≤ n ∧ n ≤ 70 then some (n - 55)
  else none

/-- The value of four hexadecimal digits. -/
def hex4? (a b c d : UInt8) : Option Nat := do
  let w ← hexValue? a
  let x ← hexValue? b
  let y ← hexValue? c
  let z ← hexValue? d
  return w * 4096 + x * 256 + y * 16 + z

/-- The byte that a one-letter escape stands for. -/
def escaped? (b : UInt8) : Option UInt8 :=
  if b = 0x22 ∨ b = 0x5c ∨ b = 0x2f then some b
  else if b = 0x62 then some 0x08
  else if b = 0x66 then some 0x0c
  else if b = 0x6e then some 0x0a
  else if b = 0x72 then some 0x0d
  else if b = 0x74 then some 0x09
  else none

/-- The UTF-8 bytes of a code point, last byte first. -/
def utf8Reversed (n : Nat) : Bytes :=
  if n < 0x80 then [UInt8.ofNat n]
  else if n < 0x800 then [UInt8.ofNat (n % 64 + 0x80), UInt8.ofNat (n / 64 + 0xc0)]
  else if n < 0x10000 then
    [UInt8.ofNat (n % 64 + 0x80), UInt8.ofNat (n / 64 % 64 + 0x80), UInt8.ofNat (n / 4096 + 0xe0)]
  else
    [UInt8.ofNat (n % 64 + 0x80), UInt8.ofNat (n / 64 % 64 + 0x80),
      UInt8.ofNat (n / 4096 % 64 + 0x80), UInt8.ofNat (n / 262144 + 0xf0)]

/-- Where the scanner of a string stands: between characters, behind a backslash, within the four
digits of a code unit, or before the second code unit of a pair. A leading surrogate that waits
for its partner is kept. -/
inductive StringState where
  | plain
  | escape
  | unit (lead : Option Nat) (digits : Bytes)
  | pairBackslash (lead : Nat)
  | pairLetter (lead : Nat)

/-- Reads the bytes of a string up to its closing quote, behind the bytes in `acc`, which is in
reverse. A code unit of a surrogate pair counts only together with its partner. -/
def stringBytes (state : StringState) (acc : Bytes) : Bytes → Except Fault (Bytes × Bytes)
  | [] => .error .ended
  | b :: s =>
    match state with
    | .plain =>
      if b = 0x22 then .ok (acc.reverse, s)
      else if b = 0x5c then stringBytes .escape acc s
      else if b < 0x20 then .error .malformed
      else stringBytes .plain (b :: acc) s
    | .escape =>
      if b = 0x75 then stringBytes (.unit none []) acc s
      else
        match escaped? b with
        | some c => stringBytes .plain (c :: acc) s
        | none => .error .malformed
    | .unit lead [d₃, d₂, d₁] =>
      match hex4? d₁ d₂ d₃ b, lead with
      | none, _ => .error .malformed
      | some n, none =>
        if 0xdc00 ≤ n ∧ n ≤ 0xdfff then .error .malformed
        else if 0xd800 ≤ n ∧ n ≤ 0xdbff then stringBytes (.pairBackslash n) acc s
        else stringBytes .plain (utf8Reversed n ++ acc) s
      | some n, some l =>
        if 0xdc00 ≤ n ∧ n ≤ 0xdfff then
          stringBytes .plain
            (utf8Reversed (0x10000 + (l - 0xd800) * 1024 + (n - 0xdc00)) ++ acc) s
        else .error .malformed
    | .unit lead digits => stringBytes (.unit lead (b :: digits)) acc s
    | .pairBackslash lead =>
      if b = 0x5c then stringBytes (.pairLetter lead) acc s else .error .malformed
    | .pairLetter lead =>
      if b = 0x75 then stringBytes (.unit (some lead) []) acc s else .error .malformed

/-- Reads the text of a string behind its opening quote. -/
def readString (s : Bytes) : Except Fault (String × Bytes) :=
  match stringBytes .plain [] s with
  | .error f => .error f
  | .ok (b, rest) =>
    match Bytes.text? b with
    | some t => .ok (t, rest)
    | none => .error .malformed

/-- The text behind a string, read from behind its opening quote. Its escapes are checked one by
one. -/
def skipString (state : StringState) : Bytes → Except Fault Bytes
  | [] => .error .ended
  | b :: s =>
    match state with
    | .escape =>
      if b = 0x75 then skipString (.unit none []) s
      else if (escaped? b).isSome then skipString .plain s
      else .error .malformed
    | .unit _ [d₃, d₂, d₁] =>
      if (hex4? d₁ d₂ d₃ b).isSome then skipString .plain s else .error .malformed
    | .unit _ digits => skipString (.unit none (b :: digits)) s
    | _ =>
      if b = 0x22 then .ok s
      else if b = 0x5c then skipString .escape s
      else if b < 0x20 then .error .malformed
      else skipString .plain s

/-! ### Numbers -/

/-- The value of a decimal digit. -/
def digit? (b : UInt8) : Option Nat :=
  let n := b.toNat
  if 48 ≤ n ∧ n ≤ 57 then some (n - 48) else none

/-- Reads digits behind the significand `m` as long as it stays below `2 ^ 64`: the significand,
the number of digits read, and the rest. -/
def moreDigits (m count : Nat) : Bytes → Nat × Nat × Bytes
  | [] => (m, count, [])
  | b :: s =>
    match digit? b with
    | some d => if m * 10 + d < UInt64.size then moreDigits (m * 10 + d) (count + 1) s
      else (m, count, b :: s)
    | none => (m, count, b :: s)

/-- Passes over digits: how many, and the rest. -/
def dropDigits (count : Nat) : Bytes → Nat × Bytes
  | [] => (count, [])
  | b :: s => if (digit? b).isSome then dropDigits (count + 1) s else (count, b :: s)

/-- The double next to `10 ^ n`. -/
def powerOfTen (n : Nat) : Float :=
  Float.ofScientific 1 false n

/-- Divides by `10 ^ n`, by no more than `10 ^ 308` at once. Three divisions take any
significand to zero. -/
def divideByPower (x : Float) (n : Nat) : (steps : Nat) → Float
  | 0 => x
  | steps + 1 =>
    if n ≤ 308 then x / powerOfTen n
    else if x == 0.0 then x
    else divideByPower (x / powerOfTen 308) (n - 308) steps

/-- The double that a significand of at most 64 bits and an exponent of ten are read as: the
significand is rounded to a double, and then multiplied with or divided by a power of ten, which
rounds again. So the double is close to the number, but not always the closest. -/
def assemble (negative : Bool) (m : Nat) (exponent : Int) : Except Fault Number :=
  let x := (UInt64.ofNat m).toFloat
  let sign (y : Float) : Number := .float (if negative then -y else y)
  if exponent < 0 then .ok (sign (divideByPower x exponent.natAbs 4))
  else if exponent ≤ 308 then
    let y := x * powerOfTen exponent.toNat
    if y.isInf then .error .malformed else .ok (sign y)
  else if x == 0.0 then .ok (sign x)
  else .error .malformed

/-- Reads the exponent of a number behind its mark. -/
def exponentPart (negative : Bool) (m : Nat) (exponent : Int) (s : Bytes) :
    Except Fault (Number × Bytes) :=
  let (below, s) := match s with
    | 0x2b :: rest => (false, rest)
    | 0x2d :: rest => (true, rest)
    | rest => (false, rest)
  match s with
  | [] => .error .ended
  | b :: _ =>
    if (digit? b).isNone then .error .malformed
    else
      let digits := s.takeWhile fun c => (digit? c).isSome
      let n : Int := digits.foldl (fun n c => n * 10 + (digit? c).getD 0) 0
      (assemble negative m (if below then exponent - n else exponent + n)).map
        (·, s.drop digits.length)

/-- Reads what follows the digits of a double: an exponent, or nothing. -/
def finishFloat (negative : Bool) (m : Nat) (exponent : Int) (s : Bytes) :
    Except Fault (Number × Bytes) :=
  match s with
  | 0x65 :: rest | 0x45 :: rest => exponentPart negative m exponent rest
  | _ => (assemble negative m exponent).map (·, s)

/-- Reads the fraction of a number behind its point. Digits that do not fit into the significand
are passed over. -/
def fractionPart (negative : Bool) (m : Nat) (exponent : Int) (s : Bytes) :
    Except Fault (Number × Bytes) :=
  let (m', count, rest) := moreDigits m 0 s
  let (dropped, rest) := dropDigits 0 rest
  if count + dropped = 0 then
    match s with
    | [] => .error .ended
    | _ => .error .malformed
  else finishFloat negative m' (exponent - count) rest

/-- Reads what follows the whole part of a number. Without a fraction and an exponent the number
is whole, if it is in the range of 64 bits and not a negative zero. -/
def finishNumber (negative : Bool) (m dropped : Nat) (s : Bytes) :
    Except Fault (Number × Bytes) :=
  match s with
  | 0x2e :: rest => fractionPart negative m dropped rest
  | 0x65 :: _ | 0x45 :: _ => finishFloat negative m dropped s
  | _ =>
    if 0 < dropped then finishFloat negative m dropped s
    else if !negative then .ok (.whole m, s)
    else if m = 0 ∨ int64Limit < m then .ok (.float (-(UInt64.ofNat m).toFloat), s)
    else .ok (.whole (-(m : Int)), s)

/-- Reads a number behind its sign. -/
def readNumber (negative : Bool) : Bytes → Except Fault (Number × Bytes)
  | [] => .error .ended
  | b :: s =>
    match digit? b with
    | none => .error .malformed
    | some 0 =>
      match s with
      | c :: _ => if (digit? c).isSome then .error .malformed else finishNumber negative 0 0 s
      | [] => finishNumber negative 0 0 s
    | some d =>
      let (m, _, rest) := moreDigits d 0 s
      let (dropped, rest) := dropDigits 0 rest
      finishNumber negative m dropped rest

/-- The text behind an exponent, read from behind its mark. -/
def skipExponent (s : Bytes) : Except Fault Bytes :=
  let s := match s with
    | 0x2b :: rest | 0x2d :: rest => rest
    | rest => rest
  match dropDigits 0 s with
  | (0, _) => .error .malformed
  | (_, rest) => .ok rest

/-- The text behind the fraction and the exponent of a number, read from behind its whole part. -/
def skipFraction (s : Bytes) : Except Fault Bytes :=
  match s with
  | 0x2e :: rest =>
    match dropDigits 0 rest with
    | (0, _) => .error .malformed
    | (_, 0x65 :: rest) | (_, 0x45 :: rest) => skipExponent rest
    | (_, rest) => .ok rest
  | 0x65 :: rest | 0x45 :: rest => skipExponent rest
  | _ => .ok s

/-- The text behind a number, read from behind its sign. What is missing is never a text that
ends too early. -/
def skipNumber (s : Bytes) : Except Fault Bytes :=
  match s with
  | [] => .error .malformed
  | b :: rest =>
    match digit? b with
    | none => .error .malformed
    | some 0 =>
      match rest with
      | c :: _ => if (digit? c).isSome then .error .malformed else skipFraction rest
      | [] => .ok rest
    | some _ => skipFraction (dropDigits 0 rest).2

/-! ### Values that nobody asks for -/

/-- A container that is being passed over. -/
inductive Open where
  | array
  | object
  deriving DecidableEq

/-- What has to come next when a value is passed over: a value; an item or the end of an array
that has just begun; a key, or the end of an object that has just begun; or what follows a
value. -/
inductive Expected where
  | value
  | firstItem
  | key (orEnd : Bool)
  | next

/-- The text behind a scalar value. -/
def skipScalar (s : Bytes) : Except Fault Bytes :=
  match s with
  | 0x6e :: rest => readWord [0x75, 0x6c, 0x6c] rest
  | 0x74 :: rest => readWord [0x72, 0x75, 0x65] rest
  | 0x66 :: rest => readWord [0x61, 0x6c, 0x73, 0x65] rest
  | 0x2d :: rest => skipNumber rest
  | 0x22 :: rest => skipString .plain rest
  | b :: _ => if (digit? b).isSome then skipNumber s else .error .malformed
  | [] => .error .ended

/-- The text behind a key and its colon, read from behind the opening quote. -/
def skipKey (s : Bytes) : Except Fault Bytes := do
  let rest ← skipString .plain s
  match skipSpace rest with
  | 0x3a :: rest => .ok rest
  | [] => .error .ended
  | _ => .error .malformed

/-- Passes over the values of the containers in `stack`, the innermost first. Every step consumes
a byte or ends, so a step for each byte suffices. -/
def skipLoop : (steps : Nat) → Expected → List Open → Bytes → Except Fault Bytes
  | 0, _, _, _ => .error .ended
  | steps + 1, expected, stack, s =>
    let s := skipSpace s
    match expected, stack with
    | .next, [] => .ok s
    | .next, .array :: outer =>
      match s with
      | 0x2c :: rest => skipLoop steps .value stack rest
      | 0x5d :: rest => skipLoop steps .next outer rest
      | [] => .error .ended
      | _ => .error .malformed
    | .next, .object :: outer =>
      match s with
      | 0x2c :: rest => skipLoop steps (.key false) stack rest
      | 0x7d :: rest => skipLoop steps .next outer rest
      | [] => .error .ended
      | _ => .error .malformed
    | .key orEnd, _ =>
      match s with
      | 0x22 :: rest =>
        match skipKey rest with
        | .ok rest => skipLoop steps .value stack rest
        | .error f => .error f
      | 0x7d :: rest => if orEnd then skipLoop steps .next stack.tail rest else .error .malformed
      | [] => .error .ended
      | _ => .error .malformed
    | first, _ =>
      match s with
      | 0x5b :: rest => skipLoop steps .firstItem (.array :: stack) rest
      | 0x7b :: rest => skipLoop steps (.key true) (.object :: stack) rest
      | 0x5d :: rest =>
        match first with
        | .firstItem => skipLoop steps .next stack.tail rest
        | _ => .error .malformed
      | _ =>
        match skipScalar s with
        | .ok rest => skipLoop steps .next stack rest
        | .error f => .error f

/-- The text behind a value. -/
def skipValue (s : Bytes) : Except Fault Bytes :=
  skipLoop (s.length + 1) .value [] s

end Courier.Json
