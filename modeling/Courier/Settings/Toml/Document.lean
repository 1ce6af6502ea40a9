import Courier.Association
import Courier.Settings.Toml.Value

/-!
# Documents of TOML

A document is a sequence of lines, each of which opens a table or gives a value to a key. A table
is opened once; its keys may have several parts, and then open tables on the way. Values between
braces or brackets are closed: no later line adds to them.

## Main definitions

* `Toml.Entry`: what a key stands for while lines are still to come.
* `Toml.openTable?`, `Toml.define?`: the effects of lines.
* `Toml.read?`: the tree of a text.
-/

namespace Courier.Settings.Toml

/-- How a table has come to be. -/
inductive Opening where
  /-- On the way to another one. -/
  | passed
  /-- By a line of its own. -/
  | header
  /-- By a key with several parts. -/
  | dotted
  deriving DecidableEq

/-- What a key stands for while lines are still to come. -/
inductive Entry where
  | value (t : Tree)
  | table (opening : Opening) (members : List (String × Entry))
  | tables (elements : List (List (String × Entry)))

/-- The entries of a table. -/
abbrev Members : Type :=
  List (String × Entry)

mutual

/-- The tree of an entry. -/
def Entry.tree : Entry → Tree
  | .value t => t
  | .table _ ms => .table none (membersTree ms)
  | .tables ts => .list none (elementsTree ts)

/-- The trees of the entries of a table. -/
def membersTree : List (String × Entry) → List (String × Tree)
  | [] => []
  | (k, e) :: ms => (k, Entry.tree e) :: membersTree ms

/-- The trees of a list of tables. -/
def elementsTree : List (List (String × Entry)) → List Tree
  | [] => []
  | ms :: ts => .table none (membersTree ms) :: elementsTree ts

end

/-- Changes the table that a key leads to, which is the last one of a list of tables. A table that
does not exist comes to be. -/
def within? (f : Members → Option Members) (k : String) (ms : Members) : Option Members := do
  match ms.lookup k with
  | none => return assign k (.table .passed (← f [])) ms
  | some (.table o sub) => return assign k (.table o (← f sub)) ms
  | some (.tables ts) =>
    return assign k (.tables (ts.dropLast ++ [← f (← ts.getLast?)])) ms
  | some (.value _) => none

/-- Changes the table that a path leads to. -/
def withinPath? (f : Members → Option Members) : List String → Members → Option Members
  | [], ms => f ms
  | k :: path, ms => within? (withinPath? f path) k ms

/-- Opens a table. One that a line has opened before is not opened again. -/
def openLast? (k : String) (ms : Members) : Option Members :=
  match ms.lookup k with
  | none => some (assign k (.table .header []) ms)
  | some (.table .passed sub) => some (assign k (.table .header sub) ms)
  | _ => none

/-- Opens a further table of a list of tables. -/
def openNext? (k : String) (ms : Members) : Option Members :=
  match ms.lookup k with
  | none => some (assign k (.tables [[]]) ms)
  | some (.tables ts) => some (assign k (.tables (ts ++ [[]])) ms)
  | _ => none

/-- Opens the table at a path. -/
def openTable? (further : Bool) (path : List String) (ms : Members) : Option Members := do
  withinPath? ((if further then openNext? else openLast?) (← path.getLast?)) path.dropLast ms

/-- Gives a value to a key with the given parts. No table that a line has opened is on its way. -/
def define? (t : Tree) : (key : List String) → Members → Option Members
  | [], _ => none
  | [k], ms => if (ms.lookup k).isSome then none else some (assign k (.value t) ms)
  | k :: key, ms => do
    match ms.lookup k with
    | none => return assign k (.table .dotted (← define? t key [])) ms
    | some (.table .header _) => none
    | some (.table o sub) => return assign k (.table o (← define? t key sub)) ms
    | _ => none

/-- Goes over blanks. -/
def skipBlanks : Reader Unit := do
  let _ ← taken isBlank

/-- Takes a certain character. -/
def mark (c : Char) : Reader Unit := do
  match ← get with
  | d :: cs =>
    demand (c == d)
    set cs
  | [] => failure

/-- Takes a part of a key. -/
def keyPart : Reader String := do
  match ← string? false with
  | some s => return s
  | none =>
    let cs ← taken fun c => c.isAlphanum || c = '_' || c = '-'
    demand !cs.isEmpty
    return String.ofList cs

/-- Takes a key, with the blanks around it. -/
def key : (limit : Nat) → Reader (List String)
  | 0 => failure
  | limit + 1 => do
    skipBlanks
    let part ← keyPart
    skipBlanks
    match ← get with
    | '.' :: cs =>
      set cs
      return part :: (← key limit)
    | _ => return [part]

/-- Goes over the rest of a line that holds nothing but a comment. -/
def lineEnd : Reader Unit := do
  skipBlanks
  if (← get).head? = some '#' then
    let _ ← taken isShown
  match ← get with
  | [] => return
  | c :: cs =>
    demand (c == '\n')
    set cs

/-- Goes over blanks, comments and ends of lines. -/
def gap : (limit : Nat) → Reader Unit
  | 0 => return
  | limit + 1 => do
    skipBlanks
    match ← get with
    | '\n' :: _ | '#' :: _ =>
      lineEnd
      gap limit
    | _ => return

mutual

/-- Takes a value. -/
def value : (fuel : Nat) → Reader Tree
  | 0 => failure
  | fuel + 1 => do
    match ← get with
    | '[' :: cs =>
      set cs
      array fuel []
    | '\x7b' :: cs =>
      set cs
      skipBlanks
      match ← get with
      | '\x7d' :: cs =>
        set cs
        return .table none []
      | _ => inlineTable fuel []
    | _ =>
      match ← string? true with
      | some s => return .text s
      | none =>
        match ← word? with
        | some v => return .scalar none v
        | none => failure

/-- Takes the items of an array up to its bracket. -/
def array : (fuel : Nat) → List Tree → Reader Tree
  | 0, _ => failure
  | fuel + 1, items => do
    let limit := (← get).length
    gap limit
    match ← get with
    | ']' :: cs =>
      set cs
      return .list none items
    | _ =>
      let t ← value fuel
      gap limit
      match ← get with
      | ',' :: cs =>
        set cs
        array fuel (items ++ [t])
      | ']' :: _ => array fuel (items ++ [t])
      | _ => failure

/-- Takes the members of a table between braces. -/
def inlineTable : (fuel : Nat) → Members → Reader Tree
  | 0, _ => failure
  | fuel + 1, ms => do
    let k ← key (← get).length
    mark '='
    skipBlanks
    let t ← value fuel
    skipBlanks
    match define? t k ms, ← get with
    | some ms, ',' :: cs =>
      set cs
      inlineTable fuel ms
    | some ms, '\x7d' :: cs =>
      set cs
      return (Entry.table .header ms).tree
    | _, _ => failure

end

/-- A document whose lines have been read in part. -/
structure Draft where
  root : Members := []
  /-- The path of the table that is open. -/
  current : List String := []

/-- Takes a line. -/
def line (d : Draft) : Reader Draft := do
  let limit := (← get).length
  skipBlanks
  match ← get with
  | [] | '#' :: _ | '\n' :: _ =>
    lineEnd
    return d
  | '[' :: cs =>
    let further := cs.head? = some '['
    set (if further then cs.drop 1 else cs)
    let path ← key limit
    mark ']'
    if further then mark ']'
    lineEnd
    match openTable? further path d.root with
    | some root => return { root, current := path }
    | none => failure
  | _ =>
    let k ← key limit
    mark '='
    skipBlanks
    let t ← value (limit + 1)
    lineEnd
    match withinPath? (define? t k) d.current d.root with
    | some root => return { d with root }
    | none => failure

/-- Takes all lines. -/
def lines : (limit : Nat) → Draft → Reader Draft
  | 0, d => return d
  | limit + 1, d => do
    if (← get).isEmpty then return d
    lines limit (← line d)

/-- The ends of lines of a text as line feeds. -/
def withLineFeeds : List Char → List Char
  | '\r' :: '\n' :: cs => '\n' :: withLineFeeds cs
  | c :: cs => c :: withLineFeeds cs
  | [] => []

/-- The tree of settings that a text describes. -/
def read? (s : String) : Option Tree := do
  let cs := withLineFeeds s.toList
  let (d, _) ← (lines (cs.length + 1) {}).run cs
  return .table none (membersTree d.root)

end Courier.Settings.Toml
