import Courier.Dictionary
import Courier.Json.Lexer

/-!
# Decoding JSON texts

A decoder reads a value of a type from the front of a text, as a stream: it reports the first
fault in the order of the text, whether the text is broken there or only the type is wrong. What
is found in place of the value is itself read first, as far as a message needs it.

## Main definitions

* `Json.Decoder`: a reader of values of one type, which may nest to a limited depth.
* `Json.Decoder.run`: reads a whole text.
* `Json.Decoder.string`, `whole`, `float`, `bool`, `option`, `list`, `dictionary`, `any`.
-/

namespace Courier.Json

/-- A decoder takes the number of levels that the value may still nest and a text; it gives the
value and the text behind it. -/
def Decoder (α : Type) := Nat → Bytes → Except Fault (α × Bytes)

/-- Levels to which arrays and objects may nest. -/
def depthLimit : Nat := 127

/-! ### Structure of arrays and objects -/

/-- What comes next within an array or an object: its end, or an item or key, together with the
text behind the end or from the item or key on. -/
inductive Ahead where
  | done (rest : Bytes)
  | more (rest : Bytes)

/-- The next item of an array, or its end. Items are separated by commas. -/
def nextItem (first : Bool) (s : Bytes) : Except Fault Ahead :=
  match skipSpace s with
  | [] => .error .ended
  | 0x5d :: rest => .ok (.done rest)
  | b :: rest =>
    if first then .ok (.more (b :: rest))
    else if b = 0x2c then
      match skipSpace rest with
      | [] => .error .ended
      | 0x5d :: _ => .error .malformed
      | rest => .ok (.more rest)
    else .error .malformed

/-- The next key of an object, behind its opening quote, or the end of the object. Members are
separated by commas. -/
def nextKey (first : Bool) (s : Bytes) : Except Fault Ahead :=
  match skipSpace s with
  | [] => .error .ended
  | 0x7d :: rest => .ok (.done rest)
  | b :: rest =>
    if first then
      if b = 0x22 then .ok (.more rest) else .error .malformed
    else if b = 0x2c then
      match skipSpace rest with
      | [] => .error .ended
      | 0x22 :: rest => .ok (.more rest)
      | _ => .error .malformed
    else .error .malformed

/-- The text behind the colon of a member. -/
def colon (s : Bytes) : Except Fault Bytes :=
  match skipSpace s with
  | [] => .error .ended
  | 0x3a :: rest => .ok rest
  | _ => .error .malformed

/-- The text behind the end of an array whose items have all been read. -/
def closeArray (s : Bytes) : Except Fault Bytes :=
  match skipSpace s with
  | [] => .error .ended
  | 0x5d :: rest => .ok rest
  | _ => .error .malformed

/-- Reads the items of an array behind those in `acc`, which is in reverse. Every item has at
least one byte, so a step for each byte suffices. -/
def itemsLoop {α : Type} (item : Bytes → Except Fault (α × Bytes)) :
    (steps : Nat) → (first : Bool) → List α → Bytes → Except Fault (List α × Bytes)
  | 0, _, _, _ => .error .ended
  | steps + 1, first, acc, s =>
    match nextItem first s with
    | .error f => .error f
    | .ok (.done rest) => .ok (acc.reverse, rest)
    | .ok (.more rest) =>
      match item rest with
      | .error f => .error f
      | .ok (x, rest) => itemsLoop item steps false (x :: acc) rest

/-- Reads the members of an object behind those in `acc`, which is in reverse. -/
def membersLoop {α : Type} (value : Bytes → Except Fault (α × Bytes)) :
    (steps : Nat) → (first : Bool) → List (String × α) → Bytes →
      Except Fault (List (String × α) × Bytes)
  | 0, _, _, _ => .error .ended
  | steps + 1, first, acc, s =>
    match nextKey first s with
    | .error f => .error f
    | .ok (.done rest) => .ok (acc.reverse, rest)
    | .ok (.more rest) =>
      match (do
        let (key, rest) ← readString rest
        let rest ← colon rest
        let (x, rest) ← value rest
        return (key, x, rest)) with
      | .error f => .error f
      | .ok (key, x, rest) => membersLoop value steps false ((key, x) :: acc) rest

/-- The items of an array, read from behind its bracket. -/
def items {α : Type} (item : Bytes → Except Fault (α × Bytes)) (s : Bytes) :
    Except Fault (List α × Bytes) :=
  itemsLoop item (s.length + 1) true [] s

/-- The members of an object, read from behind its brace. -/
def members {α : Type} (value : Bytes → Except Fault (α × Bytes)) (s : Bytes) :
    Except Fault (List (String × α) × Bytes) :=
  membersLoop value (s.length + 1) true [] s

/-! ### Values of any kind -/

/-- Reads what stands at the front of a text that begins with no white space. Of an array or an
object only the first byte is looked at. -/
def scalar (s : Bytes) : Except Fault (Found × Bytes) :=
  match s with
  | [] => .error .ended
  | 0x6e :: rest => (readWord [0x75, 0x6c, 0x6c] rest).map (.null, ·)
  | 0x74 :: rest => (readWord [0x72, 0x75, 0x65] rest).map (.bool true, ·)
  | 0x66 :: rest => (readWord [0x61, 0x6c, 0x73, 0x65] rest).map (.bool false, ·)
  | 0x2d :: rest => (readNumber true rest).map fun (n, rest) => (.number n, rest)
  | 0x22 :: rest => (readString rest).map fun (t, rest) => (.string t, rest)
  | 0x5b :: rest => .ok (.sequence, rest)
  | 0x7b :: rest => .ok (.map, rest)
  | b :: rest =>
    if (digit? b).isSome then (readNumber false (b :: rest)).map fun (n, rest) => (.number n, rest)
    else .error .malformed

/-- Refuses what stands at the front of a text, because something else was expected. -/
def mismatch {α : Type} (expected : String) (s : Bytes) : Except Fault α :=
  match scalar s with
  | .error f => .error f
  | .ok (found, _) => .error (.wrongType found expected)

/-- The members of an object in the order of their keys; of members with one key the last one
counts. -/
def normalized (ms : List (String × Json)) : List (String × Json) :=
  (Dictionary.ofList ms).entries

namespace Decoder

variable {α β : Type}

/-- Reads any value. -/
def any : Decoder Json
  | depth, s =>
    match scalar (skipSpace s) with
    | .error f => .error f
    | .ok (.null, rest) => .ok (.null, rest)
    | .ok (.bool b, rest) => .ok (.bool b, rest)
    | .ok (.number n, rest) => .ok (.number n, rest)
    | .ok (.string t, rest) => .ok (.string t, rest)
    | .ok (.sequence, rest) =>
      match depth with
      | 0 => .error .malformed
      | depth + 1 => (items (any depth) rest).map fun (xs, rest) => (.array xs, rest)
    | .ok (.map, rest) =>
      match depth with
      | 0 => .error .malformed
      | depth + 1 =>
        (members (any depth) rest).map fun (ms, rest) => (.object (normalized ms), rest)

/-- Reads a whole text. Only white space may follow the value. -/
def run (d : Decoder α) (s : Bytes) : Except Fault α := do
  let (x, rest) ← d depthLimit s
  if (skipSpace rest).isEmpty then return x else throw .malformed

/-- Applies a function to the decoded value. -/
def map (f : α → β) (d : Decoder α) : Decoder β :=
  fun depth s => (d depth s).map fun (x, rest) => (f x, rest)

/-- Refuses decoded values that break a rule of the type. -/
def check (f : α → Except String β) (d : Decoder α) : Decoder β :=
  fun depth s => do
    let (x, rest) ← d depth s
    match f x with
    | .ok y => return (y, rest)
    | .error reason => throw (.refused reason)

/-- Reads a text, which messages call `expected`. -/
def stringAs (expected : String) : Decoder String :=
  fun _ s =>
    match skipSpace s with
    | 0x22 :: rest => readString rest
    | s => mismatch expected s

/-- Reads a text. -/
def string : Decoder String :=
  stringAs "a string"

/-- Reads a truth value. -/
def bool : Decoder Bool :=
  fun _ s => do
    match ← scalar (skipSpace s) with
    | (.bool b, rest) => return (b, rest)
    | (found, _) => throw (.wrongType found "a boolean")

/-- Reads `null`. -/
def unit : Decoder Unit :=
  fun _ s => do
    match ← scalar (skipSpace s) with
    | (.null, rest) => return ((), rest)
    | (found, _) => throw (.wrongType found "unit")

/-- Reads a whole number between `least` and `greatest`, a range that messages call `expected`. -/
def whole (expected : String) (least greatest : Int) : Decoder Int :=
  fun _ s => do
    match ← scalar (skipSpace s) with
    | (.number (.whole n), rest) =>
      if least ≤ n ∧ n ≤ greatest then return (n, rest)
      else throw (.wrongValue (.number (.whole n)) expected)
    | (found, _) => throw (.wrongType found expected)

/-- Reads a natural number below a limit. -/
def natural (expected : String) (limit : Nat) : Decoder Nat :=
  (whole expected 0 (limit - 1)).map Int.toNat

/-- Reads a natural number of 64 bits. -/
def uint64 : Decoder Nat :=
  natural "u64" UInt64.size

/-- Reads a natural number of 32 bits. -/
def uint32 : Decoder Nat :=
  natural "u32" UInt32.size

/-- Reads a natural number of 16 bits. -/
def uint16 : Decoder Nat :=
  natural "u16" UInt16.size

/-- Reads a size: a natural number of 64 bits. -/
def size : Decoder Nat :=
  natural "usize" UInt64.size

/-- Reads an integer of 64 bits. -/
def int64 : Decoder Int64 :=
  (whole "i64" (-9223372036854775808) 9223372036854775807).map Int64.ofInt

/-- The double next to a whole number of at most 64 bits. -/
def floatOfInt (n : Int) : Float :=
  if n < 0 then -(UInt64.ofNat n.natAbs).toFloat else (UInt64.ofNat n.natAbs).toFloat

/-- Reads a double; whole numbers are rounded to one. -/
def float : Decoder Float :=
  fun _ s => do
    match ← scalar (skipSpace s) with
    | (.number (.whole n), rest) => return (floatOfInt n, rest)
    | (.number (.float x), rest) => return (x, rest)
    | (found, _) => throw (.wrongType found "f64")

/-- Reads a value or `null`. -/
def option (d : Decoder α) : Decoder (Option α) :=
  fun depth s =>
    match skipSpace s with
    | 0x6e :: rest => (readWord [0x75, 0x6c, 0x6c] rest).map (none, ·)
    | _ => (d depth s).map fun (x, rest) => (some x, rest)

/-- Reads an array of values. -/
def list (d : Decoder α) : Decoder (List α) :=
  fun depth s =>
    match skipSpace s, depth with
    | 0x5b :: _, 0 => .error .malformed
    | 0x5b :: rest, depth + 1 => items (d depth) rest
    | s, _ => mismatch "a sequence" s

/-- Reads an object with values of one type; of members with one key the last one counts. -/
def dictionary (d : Decoder α) : Decoder (Dictionary α) :=
  fun depth s =>
    match skipSpace s, depth with
    | 0x7b :: _, 0 => .error .malformed
    | 0x7b :: rest, depth + 1 =>
      (members (d depth) rest).map fun (ms, rest) => (Dictionary.ofList ms, rest)
    | s, _ => mismatch "a map" s

end Decoder

end Courier.Json
