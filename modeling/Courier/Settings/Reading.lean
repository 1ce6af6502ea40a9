import Courier.Decimal.Layout
import Courier.Decimal.Reading
import Courier.Json.Fault
import Courier.Settings.Tree
import Courier.Worker.Error

/-!
# Reading values out of trees

A tree of settings does not fix the types of its values: what comes from the environment is all
text. So a number is read from a text, from a truth value or from a number with a fraction, and a
text from any value without parts. A fault says under which key the value stands, and where it
comes from if that is known.

A record is read from a table, or from a list of its fields in their order. Fields that are not
given keep their value, and members of other names are left alone.

## Main definitions

* `Settings.Tree.natural`, `Settings.Tree.text?`, `Settings.Tree.optionalText`,
  `Settings.Tree.choice`: values.
* `Settings.Tree.record`: records.
-/

namespace Courier

/-- A fault that has been found further down, under a key or in a list. -/
def LoadFault.below (place : String) (fault : LoadFault) : LoadFault :=
  let extended : Option String → String
    | none => place
    | some key => if key.startsWith "[" then place ++ key else s!"{place}.{key}"
  match fault with
  | .wrongType found expected key origin => .wrongType found expected (some (extended key)) origin
  | .refused reason key => .refused reason (some (extended key))
  | fault => .refused fault.message (some place)

namespace Settings

/-- The whole number next to a double, within the numbers of settings. A half goes away from
zero. -/
def nearestNumber (x : Float) : Nat :=
  x.round.toUInt64.toNat

/-- The text of a double. -/
def floatText (x : Float) : String :=
  if x.isNaN then "NaN"
  else if x.isInf then if signBit x then "-inf" else "inf"
  else String.ofList (Layout.plain.write x)

/-- The numbers for the words of truth values. -/
def numberWords : List (String × Nat) :=
  [("true", 1), ("on", 1), ("yes", 1), ("false", 0), ("off", 0), ("no", 0)]

/-- The words for a truth value. -/
def boolText (b : Bool) : String :=
  if b then "true" else "false"

namespace Tree

/-- A value is not of the expected type. -/
def mismatch {α : Type} (t : Tree) (expected : String) : Except LoadFault α :=
  let (found, origin) := match t with
    | scalar origin .null => ("unit value", origin)
    | scalar origin (.bool b) => (s!"boolean `{b}`", origin)
    | scalar origin (.int n) => (s!"64-bit integer `{n}`", origin)
    | scalar origin (.float x) => (s!"floating point `{floatText x}`", origin)
    | scalar origin (.text s) => ("string " ++ Text.quoted s, origin)
    | list origin _ => ("sequence", origin)
    | table origin _ => ("map", origin)
  .error (.wrongType found expected none origin)

/-- Reads a number of 64 bits. -/
def number (t : Tree) : Except LoadFault Nat :=
  match t with
  | scalar _ (.int n) =>
    if n < 0 then t.mismatch "an unsigned 64 bit or less integer" else .ok n.toNat
  | scalar _ (.bool b) => .ok b.toNat
  | scalar _ (.float x) => .ok (nearestNumber x)
  | scalar _ (.text s) =>
    match numberWords.lookup s.toLower <|> Decimal.natural? UInt64.size s with
    | some n => .ok n
    | none => t.mismatch "an integer"
  | _ => t.mismatch "an integer"

/-- Reads a number of the given number of bits. -/
def natural (bits : Nat) (t : Tree) : Except LoadFault Nat := do
  let n ← t.number
  if n < Nat.pow 2 bits then return n
  throw (.wrongType s!"64-bit unsigned integer `{n}`" s!"an unsigned {bits} bit integer" none none)

/-- Reads a text. -/
def string (t : Tree) : Except LoadFault String :=
  match t with
  | scalar _ (.text s) => .ok s
  | scalar _ (.bool b) => .ok (boolText b)
  | scalar _ (.int n) => .ok (toString n)
  | scalar _ (.float x) => .ok (floatText x)
  | _ => t.mismatch "a string"

/-- Reads a text that need not be given. -/
def optionalString (t : Tree) : Except LoadFault (Option String) :=
  match t with
  | scalar _ .null => .ok none
  | _ => t.string.map some

/-- Reads the name of one of several choices. A table whose only member has this name stands for
it as well. -/
def choice {α : Type} (title : String) (choices : List (String × α)) (t : Tree) :
    Except LoadFault α := do
  let name ← match t with
    | scalar _ (.text s) => pure s
    | table _ [(name, _)] => pure name
    | _ =>
      throw (.other (s!"value of enum {title} should be represented by either string or table " ++
        "with exactly one key"))
  match choices.lookup name with
  | some x => return x
  | none => throw (.other s!"enum {title} does not have variant constructor {name}")

/-- A field of a record: its name, and the change that its value makes. -/
structure Field (ρ : Type) where
  name : String
  change : Tree → Except LoadFault (ρ → ρ)

/-- A field whose value is read by `read`. -/
def Field.of {ρ α : Type} (name : String) (read : Tree → Except LoadFault α) (set : α → ρ → ρ) :
    Field ρ where
  name
  change t := (read t).map set

/-- The words for a value that is no record. -/
def described : Tree → String
  | scalar _ .null => "unit value"
  | scalar _ (.bool b) => (Json.Found.bool b).describe
  | scalar _ (.int n) => (Json.Found.number (.whole n)).describe
  | scalar _ (.float x) =>
    if x.isNaN ∨ x.isInf then s!"floating point `{floatText x}`"
    else "floating point `" ++ String.ofList (Layout.pointed.write x) ++ "`"
  | scalar _ (.text s) => (Json.Found.string s).describe
  | list _ _ => Json.Found.sequence.describe
  | table _ _ => Json.Found.map.describe

/-- Changes a record by the value of a field at a place. -/
def Field.apply {ρ : Type} (f : Field ρ) (place : String) (t : Tree) (r : ρ) :
    Except LoadFault ρ :=
  match f.change t with
  | .ok set => .ok (set r)
  | .error fault => .error (fault.below place)

/-- Reads a record with the name `title`. -/
def record {ρ : Type} (title : String) (fields : List (Field ρ)) (initial : ρ) (t : Tree) :
    Except LoadFault ρ :=
  match t with
  | table _ ms =>
    ms.foldlM (fun r (name, t) =>
      match fields.find? (·.name = name) with
      | some f => f.apply name t r
      | none => .ok r) initial
  | list _ ts =>
    (fields.zip ts.zipIdx).foldlM (fun r (f, t, i) => f.apply s!"[{i}]" t r) initial
  | _ => .error (.other s!"invalid type: {t.described}, expected struct {title}")

end Tree

end Settings

end Courier
