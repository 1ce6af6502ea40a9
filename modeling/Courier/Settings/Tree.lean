/-!
# Trees of settings

Settings come from files and from the environment as trees: values without parts, lists, and
tables whose members have names. Every node may say where it comes from, for the sentences about
values that cannot be used.

## Main definitions

* `Settings.Scalar`, `Settings.Tree`: trees of settings.
* `Settings.Tree.comingFrom`: a tree all of which comes from one place.
-/

namespace Courier.Settings

/-- A value without parts. -/
inductive Scalar where
  | null
  | bool (b : Bool)
  | int (n : Int)
  | float (x : Float)
  | text (s : String)

/-- Settings as they are found, with their origins. -/
inductive Tree where
  | scalar (origin : Option String) (v : Scalar)
  | list (origin : Option String) (items : List Tree)
  | table (origin : Option String) (members : List (String × Tree))

namespace Tree

instance : Inhabited Tree := ⟨scalar none .null⟩

/-- No value. -/
def null : Tree :=
  scalar none .null

/-- A text. -/
def text (s : String) : Tree :=
  scalar none (.text s)

mutual

/-- The same tree, all of which comes from one place. -/
def comingFrom (origin : String) : Tree → Tree
  | scalar _ v => scalar (some origin) v
  | list _ items => list (some origin) (itemsFrom origin items)
  | table _ members => table (some origin) (membersFrom origin members)

/-- The items of a list. -/
def itemsFrom (origin : String) : List Tree → List Tree
  | [] => []
  | t :: ts => comingFrom origin t :: itemsFrom origin ts

/-- The members of a table. -/
def membersFrom (origin : String) : List (String × Tree) → List (String × Tree)
  | [] => []
  | (name, t) :: ms => (name, comingFrom origin t) :: membersFrom origin ms

end

end Tree

end Courier.Settings
