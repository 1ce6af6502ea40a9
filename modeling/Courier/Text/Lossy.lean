import Courier.Bytes

/-!
# Texts from any bytes

Bytes that are meant to be a text are read as UTF-8 as far as they are. What is not UTF-8 is
replaced: each longest beginning of a character that breaks off becomes one replacement character,
and so does each byte with which no character begins.

## Main definitions

* `Text.lossy`: the text of a byte string.
-/

namespace Courier.Text

/-- The character for what cannot be read. -/
def replacement : Char :=
  '\uFFFD'

/-- The number of bytes behind a first byte, the bounds of the next one, and the bits of the first
byte that belong to the character; `none` if no character begins so. -/
def firstByte (b : UInt8) : Option (Nat × UInt8 × UInt8 × Nat) :=
  let n := b.toNat
  if n < 0x80 then some (0, 0, 0, n)
  else if 0xc2 ≤ n ∧ n ≤ 0xdf then some (1, 0x80, 0xbf, n - 0xc0)
  else if 0xe0 ≤ n ∧ n ≤ 0xef then
    some (2, if n = 0xe0 then 0xa0 else 0x80, if n = 0xed then 0x9f else 0xbf, n - 0xe0)
  else if 0xf0 ≤ n ∧ n ≤ 0xf4 then
    some (3, if n = 0xf0 then 0x90 else 0x80, if n = 0xf4 then 0x8f else 0xbf, n - 0xf0)
  else none

/-- Reads the bytes behind the first one, and counts those that belong to the character. The
bounds are those of the next byte, `value` is what has been read. -/
def continuation : (count : Nat) → (low high : UInt8) → (value used : Nat) → Bytes → Char × Nat
  | 0, _, _, value, used, _ => (Char.ofNat value, used)
  | count + 1, low, high, value, used, s =>
    match s with
    | [] => (replacement, used)
    | b :: rest =>
      if low ≤ b ∧ b ≤ high then
        continuation count 0x80 0xbf (64 * value + (b.toNat - 0x80)) (used + 1) rest
      else (replacement, used)

/-- The character at the front of a byte string, and the number of bytes behind the first one that
it takes. -/
def readChar (b : UInt8) (rest : Bytes) : Char × Nat :=
  match firstByte b with
  | some (count, low, high, value) => continuation count low high value 0 rest
  | none => (replacement, 0)

/-- The characters of a byte string. -/
def lossyChars : Bytes → List Char
  | [] => []
  | b :: rest =>
    let (c, used) := readChar b rest
    c :: lossyChars (rest.drop used)
termination_by s => s.length
decreasing_by simp only [List.length_drop, List.length_cons]; omega

/-- The text of a byte string. -/
def lossy (s : Bytes) : String :=
  String.ofList (lossyChars s)

end Courier.Text
