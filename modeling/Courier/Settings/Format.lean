import Courier.Decimal.Reading
import Courier.Json.Decoder
import Courier.Settings.Toml.Document
import Courier.Settings.Yaml.Document

/-!
# Formats of settings files

A settings file is written in one of three formats, all of which stand for trees of settings.

## Main definitions

* `Settings.FileFormat`, `Settings.FileFormat.read?`: the formats, and the trees of texts in them.
-/

namespace Courier.Settings

/-- The formats of settings files. -/
inductive FileFormat where
  | toml
  | json
  | yaml
  deriving DecidableEq, Repr

namespace FileFormat

/-- The endings of file names, in the order in which they are tried. -/
def endings : List (String × FileFormat) :=
  [("toml", toml), ("json", json), ("yaml", yaml), ("yml", yaml)]

mutual

/-- A JSON value as a tree of settings. A number beyond 64 bits is one with a fraction. -/
def ofJson : Json → Tree
  | .null => .null
  | .bool b => .scalar none (.bool b)
  | .number (.whole n) =>
    .scalar none (if FitsInt64 n then .int n else .float (Json.Decoder.floatOfInt n))
  | .number (.float x) => .scalar none (.float x)
  | .string s => .text s
  | .array xs => .list none (ofItems xs)
  | .object ms => .table none (ofMembers ms)

/-- The items of an array as trees of settings. -/
def ofItems : List Json → List Tree
  | [] => []
  | x :: xs => ofJson x :: ofItems xs

/-- The members of an object as trees of settings. -/
def ofMembers : List (String × Json) → List (String × Tree)
  | [] => []
  | (k, v) :: ms => (k, ofJson v) :: ofMembers ms

end

/-- The tree of settings that a text describes. -/
def read? (f : FileFormat) (s : String) : Option Tree :=
  match f with
  | toml => Toml.read? s
  | json => ((Json.Decoder.any.run (.ofText s)).toOption).map ofJson
  | yaml => Yaml.read? s

end FileFormat

end Courier.Settings
