import Courier.Decimal.Reading
import Courier.Timestamp.Basic

/-!
# Texts of timestamps

A timestamp is written in the form of RFC 3339 with the zone `Z` and with no, three, six or nine
digits of a second's fraction. Years outside of 0 to 9999 carry a sign, and a leap second is
second 60. Reading is more liberal: it takes any zone, blanks between the parts, and parts with
fewer digits.

## Main definitions

* `Text.isBlank`, `Text.trimStart`: the blank characters, and a text without those at its start.
* `Timestamp.write`, `Timestamp.writeLong`: the wire form, and the form for people.
* `Timestamp.read`: the timestamp of a text.
* `Timestamp.Fault`: why a text is no timestamp.
-/

namespace Courier

namespace Text

/-- Whether a character has the White_Space property of the Unicode Standard. -/
def isBlank (c : Char) : Bool :=
  let n := c.toNat
  (9 ≤ n && n ≤ 13) || n = 0x20 || n = 0x85 || n = 0xa0 || n = 0x1680 ||
    (0x2000 ≤ n && n ≤ 0x200a) || n = 0x2028 || n = 0x2029 || n = 0x202f || n = 0x205f ||
    n = 0x3000

/-- The text without the blanks at its start. -/
def trimStart (s : List Char) : List Char :=
  s.dropWhile isBlank

end Text

namespace Timestamp

/-- Why a text is no timestamp. -/
inductive Fault where
  /-- A part lies outside of its range, or the calendar does not have the date. -/
  | outOfRange
  /-- The local time has no counterpart in Coordinated Universal Time. -/
  | impossible
  /-- A character does not belong where it stands. -/
  | invalid
  /-- The text ends before the timestamp does. -/
  | tooShort
  /-- Something follows the timestamp. -/
  | tooLong
  deriving DecidableEq, Repr

/-- The sentence shown for a fault. -/
def Fault.message : Fault → String
  | outOfRange => "input is out of range"
  | impossible => "no possible date and time matching input"
  | invalid => "input contains invalid characters"
  | tooShort => "premature end of input"
  | tooLong => "trailing input"

/-! ### Writing -/

/-- The decimal digits of `n`, filled up with zeros to `width` digits. -/
def padded (width n : Nat) : List Char :=
  let digits := Nat.toDigits 10 n
  List.replicate (width - digits.length) '0' ++ digits

/-- Years 0 to 9999 have four digits, others a sign and at least four digits. -/
def writeYear (year : Int) : List Char :=
  if 0 ≤ year ∧ year ≤ 9999 then padded 4 year.toNat
  else (if year < 0 then '-' else '+') :: padded 4 year.natAbs

/-- The fraction of a second: none, or as many groups of three digits as it needs. -/
def writeFraction (nanos : Nat) : List Char :=
  if nanos = 0 then []
  else if nanos % 1000000 = 0 then '.' :: padded 3 (nanos / 1000000)
  else if nanos % 1000 = 0 then '.' :: padded 6 (nanos / 1000)
  else '.' :: padded 9 nanos

/-- Date and time of day with a separator between them. -/
def writeParts (t : Timestamp) (separator : Char) : List Char :=
  let date := Date.ofDay (t.seconds / 86400)
  let second := (t.seconds % 86400).toNat
  let leap := if 1000000000 ≤ t.nanos then 1 else 0
  writeYear date.year ++ '-' :: padded 2 date.month ++ '-' :: padded 2 date.day ++
    separator :: padded 2 (second / 3600) ++ ':' :: padded 2 (second / 60 % 60) ++
    ':' :: padded 2 (second % 60 + leap) ++ writeFraction (t.nanos % 1000000000)

/-- The wire form, such as `2030-01-01T00:00:00Z`. -/
def write (t : Timestamp) : List Char :=
  t.writeParts 'T' ++ ['Z']

/-- The form for people, such as `2030-01-01 00:00:00 UTC`. -/
def writeLong (t : Timestamp) : List Char :=
  t.writeParts ' ' ++ [' ', 'U', 'T', 'C']

/-! ### Reading -/

/-- The value of a decimal digit. -/
def digit? (c : Char) : Option Nat :=
  if '0' ≤ c ∧ c ≤ '9' then some (c.toNat - '0'.toNat) else none

/-- Reads digits behind the number `n`, at most `limit` of them when there is a limit; the number
stays below `2 ^ 63`. -/
def moreDigits (n : Nat) (limit : Option Nat) : List Char → Except Fault (Nat × List Char)
  | [] => .ok (n, [])
  | c :: rest =>
    if limit = some 0 then .ok (n, c :: rest)
    else match digit? c with
      | none => .ok (n, c :: rest)
      | some d =>
        if n * 10 + d < int64Limit then moreDigits (n * 10 + d) (limit.map (· - 1)) rest
        else .error .outOfRange

/-- Reads a number of at least one digit. -/
def number (limit : Option Nat) (s : List Char) : Except Fault (Nat × List Char) :=
  match s with
  | [] => .error .tooShort
  | c :: _ => if (digit? c).isSome then moreDigits 0 limit s else .error .invalid

/-- Reads a year: with a sign any number of digits, else at most four. -/
def year (s : List Char) : Except Fault (Int × List Char) :=
  match Text.trimStart s with
  | '-' :: rest => (number none rest).map fun (n, rest) => (-(n : Int), rest)
  | '+' :: rest => (number none rest).map fun (n, rest) => ((n : Int), rest)
  | rest => (number (some 4) rest).map fun (n, rest) => ((n : Int), rest)

/-- Reads one or two digits that lie between `least` and `greatest`. -/
def twoDigits (least greatest : Nat) (s : List Char) : Except Fault (Nat × List Char) := do
  let (n, rest) ← number (some 2) (Text.trimStart s)
  if least ≤ n ∧ n ≤ greatest then .ok (n, rest) else .error .outOfRange

/-- Reads the character `mark` behind blanks. -/
def mark (mark : Char) (s : List Char) : Except Fault (List Char) :=
  match Text.trimStart s with
  | [] => .error .tooShort
  | c :: rest => if c = mark then .ok rest else .error .invalid

/-- Reads the character between date and time of day. -/
def separator : List Char → Except Fault (List Char)
  | [] => .error .tooShort
  | c :: rest => if c = 't' ∨ c = 'T' ∨ c = ' ' then .ok rest else .error .invalid

/-- Reads the fraction of a second, if there is one, as nanoseconds. Digits behind the ninth are
passed over. -/
def fraction : List Char → Except Fault (Nat × List Char)
  | '.' :: rest => do
    let (n, after) ← number (some 9) rest
    let read := rest.length - after.length
    .ok (n * Nat.pow 10 (9 - read), after.dropWhile fun c => (digit? c).isSome)
  | s => .ok (0, s)

/-- Two characters that shall be digits. -/
def digitPair (s : List Char) : Except Fault (Nat × Nat × List Char) :=
  match s with
  | [] => .error .tooShort
  | [c] => if c.toNat < 128 then .error .tooShort else .error .invalid
  | c :: d :: rest =>
    match digit? c, digit? d with
    | some m, some n => .ok (m, n, rest)
    | _, _ => .error .invalid

/-- The sign of a zone's distance, as whether it is negative. -/
def zoneSign : List Char → Except Fault (Bool × List Char)
  | [] => .error .tooShort
  | c :: rest =>
    if c = '+' then .ok (false, rest)
    else if c = '-' ∨ c = '\u2212' then .ok (true, rest)
    else .error .invalid

/-- Whether the text starts with the zone name `UTC`, in capitals or not. -/
def utc? (s : List Char) : Option (List Char) :=
  if (s.take 3).map Char.toUpper = ['U', 'T', 'C'] then some (s.drop 3) else none

/-- Reads the zone as seconds to the east. -/
def zone (s : List Char) : Except Fault (Int × List Char) :=
  match utc? s with
  | some rest => .ok (0, rest)
  | none =>
    match s with
    | 'Z' :: rest | 'z' :: rest => .ok (0, rest)
    | _ => do
      let (negative, rest) ← zoneSign s
      let (h, h', rest) ← digitPair rest
      let (m, m', rest) ← digitPair (rest.dropWhile fun c => c = ':' || Text.isBlank c)
      if 6 ≤ m then .error .outOfRange
      else
        let seconds : Int := (h * 10 + h') * 3600 + (m * 10 + m') * 60
        .ok (if negative then -seconds else seconds, rest)

/-- The parts of a timestamp's text. -/
structure Parts where
  date : Date
  hour : Nat
  minute : Nat
  second : Nat
  nanos : Nat
  zone : Int

/-- Reads the parts and checks that nothing follows them. -/
def readParts (s : List Char) : Except Fault Parts := do
  let (y, s) ← year s
  if y < -2147483648 ∨ 2147483647 < y then throw .outOfRange
  let s ← mark '-' s
  let (month, s) ← twoDigits 1 12 s
  let s ← mark '-' s
  let (day, s) ← twoDigits 1 31 s
  let s ← separator s
  let (hour, s) ← twoDigits 0 23 s
  let s ← mark ':' s
  let (minute, s) ← twoDigits 0 59 s
  let s ← mark ':' s
  let (second, s) ← twoDigits 0 60 s
  let (nanos, s) ← fraction s
  let (zone, s) ← zone (Text.trimStart s)
  if !(Text.trimStart s).isEmpty then throw .tooLong
  return ⟨⟨y, month, day⟩, hour, minute, second, nanos, zone⟩

/-- The timestamp of the parts. The local date exists, and so does the date in Coordinated
Universal Time. -/
def ofParts (p : Parts) : Except Fault Timestamp :=
  if !p.date.isValid || p.date.year < -262143 || 262142 < p.date.year then .error .outOfRange
  else if p.zone ≤ -86400 ∨ 86400 ≤ p.zone then .error .outOfRange
  else
    let leap := p.second = 60
    let second : Int := if leap then 59 else p.second
    let seconds := p.date.toDay * 86400 + p.hour * 3600 + p.minute * 60 + second - p.zone
    let nanos := if leap then p.nanos + 1000000000 else p.nanos
    match ofUnix? seconds nanos with
    | some t => .ok t
    | none => .error .impossible

/-- The timestamp of a text. -/
def read (s : List Char) : Except Fault Timestamp :=
  (readParts s).bind ofParts

end Timestamp

end Courier
