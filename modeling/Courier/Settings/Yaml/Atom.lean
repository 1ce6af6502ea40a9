import Courier.Association
import Courier.Decimal.Reading
import Courier.Settings.Tree

/-!
# Scalars of YAML

A plain scalar is a number, a truth value, no value or a text, as its spelling says. A scalar in
quotes is a text, and so is one with a tag other than those of the other kinds.

The words for infinity and for what is no number are numbers of YAML that settings do not have: a
text with one of them as a value is refused, but they may stand as names.

## Main definitions

* `Yaml.Atom`, `Yaml.Atom.ofPlain`, `Yaml.Atom.ofTagged`: scalars and their spellings.
* `Yaml.Node`: a scalar, or a tree of settings.
* `Yaml.Node.tree?`, `Yaml.Node.name?`: what a node means as a value and as a name.
-/

namespace Courier.Settings.Yaml

/-- A scalar. A number with a fraction keeps its spelling. -/
inductive Atom where
  | null
  | bool (b : Bool)
  | int (n : Int)
  | real (spelling : String)
  | text (s : String)
  deriving DecidableEq

/-- The value of a digit of a base up to 36. -/
def digit? (base : Nat) (c : Char) : Option Nat :=
  let n :=
    if c.isDigit then c.toNat - '0'.toNat
    else if 'a' ≤ c ∧ c ≤ 'z' then c.toNat - 'a'.toNat + 10
    else if 'A' ≤ c ∧ c ≤ 'Z' then c.toNat - 'A'.toNat + 10
    else base
  if n < base then some n else none

/-- The whole number of 64 bits that digits of a base stand for, perhaps with a sign. -/
def whole? (base : Nat) (cs : List Char) : Option Int := do
  let (negative, digits) := Decimal.splitSign cs
  if digits.isEmpty then none
  let values ← digits.mapM (digit? base)
  let magnitude := values.foldl (fun n d => n * base + d) 0
  let n : Int := if negative then -magnitude else magnitude
  if FitsInt64 n then some n else none

/-- The words for infinity and for what is no number. -/
def wordsBeyond : List String :=
  [".inf", ".Inf", ".INF", "+.inf", "+.Inf", "+.INF", "-.inf", "-.Inf", "-.INF", ".nan", ".NaN",
    ".NAN"]

/-- Whether a plain scalar is a number with a fraction. -/
def isReal (s : String) : Bool :=
  wordsBeyond.contains s || (s.toList.any Char.isDigit && (Decimal.float? s).isSome)

namespace Atom

/-- The whole number that a plain scalar is by its beginning. -/
def marked? (cs : List Char) : Option Int :=
  match cs with
  | '0' :: 'x' :: cs => whole? 16 cs
  | '0' :: 'o' :: cs => whole? 8 cs
  | '+' :: cs => whole? 10 cs
  | _ => none

/-- What a plain scalar is. -/
def ofPlain (s : String) : Atom :=
  match marked? s.toList with
  | some n => int n
  | none =>
    if s = "" ∨ s = "~" ∨ s = "null" then null
    else if s = "true" then bool true
    else if s = "false" then bool false
    else
      match whole? 10 s.toList with
      | some n => int n
      | none => if isReal s then real s else text s

/-- What a plain scalar with a tag is. A scalar that is not of the kind of its tag is no value. -/
def ofTagged (tag s : String) : Atom :=
  match tag with
  | "!!bool" => if s = "true" then bool true else if s = "false" then bool false else null
  | "!!int" => ((whole? 10 s.toList).map int).getD null
  | "!!float" => if isReal s then real s else null
  | "!!null" => null
  | _ => text s

/-- What a scalar is as the name of a member. -/
def name? : Atom → Option String
  | null => none
  | bool b => some (if b then "true" else "false")
  | int n => some (toString n)
  | real s => some s
  | text s => some s

/-- What a scalar is as a value. -/
def tree? : Atom → Option Tree
  | null => some .null
  | bool b => some (.scalar none (.bool b))
  | int n => some (.scalar none (.int n))
  | real s => (Decimal.float? s).map fun x => .scalar none (.float x)
  | text s => some (.text s)

end Atom

/-- A scalar, or a tree of settings. -/
inductive Node where
  | atom (a : Atom)
  | tree (t : Tree)

namespace Node

/-- The node that nothing stands for. -/
def empty : Node :=
  atom .null

/-- What a node is as a value. -/
def tree? : Node → Option Tree
  | atom a => a.tree?
  | tree t => some t

/-- What a node is as the name of a member. -/
def name? : Node → Option Atom
  | atom .null => none
  | atom a => some a
  | tree _ => none

end Node

/-- A table of members, which have different names. -/
def tableOf? (members : List (Atom × Tree)) : Option Tree := do
  return .table none (← members.foldlM (fun ms (a, t) => do
    return assign (← a.name?) t ms) [])

end Courier.Settings.Yaml
