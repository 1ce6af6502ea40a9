import Courier.Base64
import Courier.Decimal.Reading
import Courier.Message.Basic
import Courier.Timestamp.Text

/-!
# Typed headers

Headers travel in one binary attribute. It holds a JSON object from the name of a header to its
kind and its value, so that numbers, truth values, byte strings and timestamps come back as what
they were.

## Main definitions

* `Header`, `Headers`: a typed value, and a dictionary of them.
* `Headers.toAttribute`: the attribute that carries headers.
* `Headers.ofAttribute`: the headers in an attribute; none when there is no attribute.
-/

namespace Courier

/-- A typed header value. -/
inductive Header where
  | string (s : String)
  | int (n : Int64)
  | float (x : Float)
  | bool (b : Bool)
  | bytes (b : Bytes)
  | timestamp (t : Timestamp)
  deriving DecidableEq

/-- Headers by name. -/
abbrev Headers := Dictionary Header

/-- The name of the attribute that carries the headers. -/
def headersKey : String := "headers"

/-- The kinds of header values. -/
inductive HeaderKind where
  | string
  | int
  | float
  | bool
  | bytes
  | timestamp
  deriving DecidableEq, Repr

namespace HeaderKind

/-- The kinds under their names on the wire. -/
def names : List (String × HeaderKind) :=
  [("string", string), ("int", int), ("float", float), ("bool", bool), ("bytes", bytes),
    ("timestamp", timestamp)]

/-- The name of a kind on the wire. -/
def name : HeaderKind → String
  | string => "string"
  | int => "int"
  | float => "float"
  | bool => "bool"
  | bytes => "bytes"
  | timestamp => "timestamp"

end HeaderKind

namespace Header

/-- The kind of a value. -/
def kind : Header → HeaderKind
  | string _ => .string
  | int _ => .int
  | float _ => .float
  | bool _ => .bool
  | bytes _ => .bytes
  | timestamp _ => .timestamp

/-- The text of a string header. -/
def string? : Header → Option String
  | string s => some s
  | _ => none

/-- The JSON value of a header without its kind. Byte strings are written in Base64. -/
def content : Header → Json
  | string s => .string s
  | int n => .int n.toInt
  | float x => .number (.float x)
  | bool b => .bool b
  | bytes b => .string (Base64.text b)
  | timestamp t => .string (String.ofList t.write)

/-- The JSON value of a header. -/
def toJson (v : Header) : Json :=
  .object [("type", .string v.kind.name), ("value", v.content)]

/-- The byte string whose Base64 form is a text. -/
def bytesOfText (s : String) : Except String Header :=
  match Base64.decode (Bytes.ofText s) with
  | .ok b => .ok (bytes b)
  | .error f => .error f.message

/-- The timestamp that a text describes. -/
def timestampOfText (s : String) : Except String Header :=
  match Timestamp.read s.toList with
  | .ok t => .ok (timestamp t)
  | .error f => .error f.message

end Header

/-- Words for the text of a timestamp. -/
def timestampWords : String :=
  "an RFC 3339 formatted date and time string"

namespace HeaderKind

open Json

/-- Reads the value of a header of a known kind. -/
def decoder : HeaderKind → Decoder Header
  | string => Decoder.string.map .string
  | int => Decoder.int64.map .int
  | float => Decoder.float.map .float
  | bool => Decoder.bool.map .bool
  | bytes => Decoder.string.check Header.bytesOfText
  | timestamp => (Decoder.stringAs timestampWords).check Header.timestampOfText

end HeaderKind

/-- What a JSON value is, for messages. -/
def Json.found : Json → Json.Found
  | .null => .null
  | .bool b => .bool b
  | .number n => .number n
  | .string s => .string s
  | .array _ => .sequence
  | .object _ => .map

namespace HeaderKind

open Json

/-- A refusal as a fault. -/
def refuse {α : Type} : Except String α → Except Fault α
  | .ok x => .ok x
  | .error reason => .error (.refused reason)

/-- The header of a known kind whose value has already been read. -/
def ofJson (kind : HeaderKind) (v : Json) : Except Fault Header :=
  match kind, v with
  | string, .string s => .ok (.string s)
  | string, v => .error (.wrongType v.found "a string")
  | int, .number (.whole n) =>
    if FitsInt64 n then .ok (.int (Int64.ofInt n))
    else .error (.wrongValue (.number (.whole n)) "i64")
  | int, v => .error (.wrongType v.found "i64")
  | float, .number (.whole n) => .ok (.float (Decoder.floatOfInt n))
  | float, .number (.float x) => .ok (.float x)
  | float, v => .error (.wrongType v.found "f64")
  | bool, .bool b => .ok (.bool b)
  | bool, v => .error (.wrongType v.found "a boolean")
  | bytes, .string s => refuse (Header.bytesOfText s)
  | bytes, v => .error (.wrongType v.found "a string")
  | timestamp, .string s => refuse (Header.timestampOfText s)
  | timestamp, v => .error (.wrongType v.found timestampWords)

end HeaderKind

namespace Header

open Json

/-- Words for a header value. -/
def words : String :=
  "adjacently tagged enum HeaderValue"

/-- The next member of a header that counts, after others have been passed over. -/
inductive NextMember where
  | kind (rest : Bytes)
  | value (rest : Bytes)
  | done (rest : Bytes)

/-- Looks for the next member that counts, up to its colon. -/
def nextMember : (steps : Nat) → (first : Bool) → Bytes → Except Fault NextMember
  | 0, _, _ => .error .ended
  | steps + 1, first, s => do
    match ← nextKey first s with
    | .done rest => return .done rest
    | .more rest =>
      let (key, rest) ← readString rest
      if key = "type" then return .kind rest
      else if key = "value" then return .value rest
      else
        let rest ← colon rest
        let rest ← skipValue rest
        nextMember steps false rest

/-- Reads what follows kind and value: nothing that counts. -/
def closeMembers (v : Header) (s : Bytes) : Except Fault (Header × Bytes) := do
  match ← nextMember (s.length + 1) false s with
  | .kind _ => throw (.duplicateField "type")
  | .value _ => throw (.duplicateField "value")
  | .done rest => return (v, rest)

/-- Reads the members of a header. Kind and value may come in either order. -/
def readMembers (depth : Nat) (s : Bytes) : Except Fault (Header × Bytes) := do
  match ← nextMember (s.length + 1) true s with
  | .kind rest =>
    let (kind, rest) ← Decoder.variant HeaderKind.names depth (← colon rest)
    match ← nextMember (rest.length + 1) false rest with
    | .kind _ => throw (.duplicateField "type")
    | .value rest =>
      let (v, rest) ← kind.decoder depth (← colon rest)
      closeMembers v rest
    | .done _ => throw (.missingField "value")
  | .value rest =>
    let (content, rest) ← Decoder.any depth (← colon rest)
    match ← nextMember (rest.length + 1) false rest with
    | .kind rest =>
      let (kind, rest) ← Decoder.variant HeaderKind.names depth (← colon rest)
      closeMembers (← kind.ofJson content) rest
    | .value _ => throw (.duplicateField "value")
    | .done _ => throw (.missingField "type")
  | .done _ => throw (.missingField "type")

/-- Reads a header that is given as an array of kind and value. -/
def readItems (depth : Nat) (s : Bytes) : Except Fault (Header × Bytes) := do
  match ← nextItem true s with
  | .done _ => throw (.wrongLength 0 words)
  | .more rest =>
    let (kind, rest) ← Decoder.variant HeaderKind.names depth rest
    match ← nextItem false rest with
    | .done _ => throw (.wrongLength 1 words)
    | .more rest =>
      let (v, rest) ← kind.decoder depth rest
      return (v, ← closeArray rest)

/-- Reads a header value. -/
def decoder : Decoder Header :=
  fun depth s =>
    match skipSpace s, depth with
    | 0x7b :: _, 0 | 0x5b :: _, 0 => .error .malformed
    | 0x7b :: rest, depth + 1 => readMembers depth rest
    | 0x5b :: rest, depth + 1 => readItems depth rest
    | s, _ => mismatch words s

end Header

namespace Headers

/-- The JSON object of headers. -/
def toJson (h : Headers) : Json :=
  .object (h.entries.map fun e => (e.1, e.2.toJson))

/-- The attribute that carries headers. -/
def toAttribute (h : Headers) : Attribute :=
  .binary h.toJson.encode

/-- The headers in an attribute, which has to be binary. Without an attribute there are none. -/
def ofAttribute : Option Attribute → Except EnvelopeError Headers
  | none => .ok ∅
  | some (.binary b) =>
    match (Json.Decoder.dictionary Header.decoder).run b with
    | .ok h => .ok h
    | .error f => .error (.invalidHeaders f)
  | some a => .error (.unexpectedDataType headersKey "Binary" a.dataType)

end Headers

end Courier
