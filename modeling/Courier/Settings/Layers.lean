import Courier.Association
import Courier.Decimal.Reading
import Courier.Settings.Tree

/-!
# Layers of settings

A source of settings lies over the earlier ones: where both have a table their members are joined,
and everything else is replaced. The name of a member at the top of a source may be a path such as
`consumer.worker_count` or `items[0]`, and then stands for a place further down. A name that is no
path is taken as it is.

The places on a path come to be as they are needed. A table that has been joined comes from no
single place.

## Main definitions

* `Settings.Path`, `Settings.Path.read?`: paths and their texts.
* `Settings.Tree.merge`: a tree over another one.
* `Settings.Tree.overlay`: a source over the earlier ones.
-/

namespace Courier.Settings

/-- A step of a path. -/
inductive Step where
  | key (name : String)
  | index (n : Int)
  deriving DecidableEq, Repr

/-- A way down a tree. -/
abbrev Path : Type :=
  List Step

namespace Path

/-- The characters of the names in a path. -/
def isNameChar (c : Char) : Bool :=
  c.isAlphanum || c = '_' || c = '-'

/-- Reads an index up to its bracket. -/
def index? (cs : List Char) : Option (Int × List Char) :=
  let (negative, cs) := match cs with
    | '-' :: cs => (true, cs)
    | cs => (false, cs)
  let digits := cs.takeWhile Char.isDigit
  match digits, cs.dropWhile Char.isDigit with
  | _ :: _, ']' :: rest =>
    let n := digits.foldl (fun n c => 10 * n + (c.toNat - '0'.toNat)) 0
    if n < int64Limit then some (if negative then -(n : Int) else n, rest) else none
  | _, _ => none

/-- Reads the steps behind the first one, at most `limit` of them. -/
def stepsFrom : (limit : Nat) → List Char → Option Path
  | _, [] => some []
  | limit + 1, '.' :: cs =>
    match cs.takeWhile isNameChar with
    | [] => none
    | name => (stepsFrom limit (cs.dropWhile isNameChar)).map (.key (String.ofList name) :: ·)
  | limit + 1, '[' :: cs => do
    let (n, rest) ← index? cs
    return .index n :: (← stepsFrom limit rest)
  | _, _ => none

/-- The path that a text describes. -/
def read? (s : String) : Option Path :=
  let cs := s.toList
  stepsFrom (cs.length + 1) (if cs.isEmpty then ['.'] else '.' :: cs)

/-- The path of a member's name. -/
def ofName (name : String) : Path :=
  (read? name).getD [.key name]

end Path

namespace Tree

/-- The members of a table, and of all else none. -/
def members : Tree → List (String × Tree)
  | table _ ms => ms
  | _ => []

/-- The items of a list, and of all else none. -/
def items : Tree → List Tree
  | list _ ts => ts
  | _ => []

/-- A table with the given members in place of a tree. It keeps the origin of a table. -/
def withMembers (t : Tree) (ms : List (String × Tree)) : Tree :=
  match t with
  | table origin _ => table origin ms
  | _ => table none ms

/-- A list with the given items in place of a tree. It keeps the origin of a list. -/
def withItems (t : Tree) (ts : List Tree) : Tree :=
  match t with
  | list origin _ => list origin ts
  | _ => list none ts

/-- Makes room for an index in a list. Negative indices count from the end; where the list is too
short it is filled up with nulls. -/
def makeRoom (ts : List Tree) (n : Int) : List Tree × Nat :=
  let size := ts.length
  if 0 ≤ n then (ts ++ List.replicate (n.toNat + 1 - size) null, n.toNat)
  else if n.natAbs ≤ size then (ts, size - n.natAbs)
  else (List.replicate (n.natAbs - size) null ++ ts, 0)

/-- Changes what stands at a path. -/
def modifyAt (f : Tree → Tree) : Path → Tree → Tree
  | [], t => f t
  | .key name :: path, t =>
    let child := (t.members.lookup name).getD null
    t.withMembers (assign name (modifyAt f path child) t.members)
  | .index n :: path, t =>
    let (ts, i) := makeRoom t.items n
    t.withItems (ts.set i (modifyAt f path (ts.getD i null)))

mutual

/-- A tree over another one. -/
def merge (below : Tree) : Tree → Tree
  | table _ ms => mergeMembers (below.withMembers below.members) ms
  | above => above

/-- Members over a tree. -/
def mergeMembers (below : Tree) : List (String × Tree) → Tree
  | [] => below
  | (name, above) :: ms =>
    let child := (below.members.lookup name).getD null
    mergeMembers (below.withMembers (assign name (merge child above) below.members)) ms

end

/-- A source over the earlier ones. -/
def overlay (below : Tree) (source : List (String × Tree)) : Tree :=
  source.foldl (fun t (name, above) => modifyAt (merge · above) (.ofName name) t) below

end Tree

end Courier.Settings
