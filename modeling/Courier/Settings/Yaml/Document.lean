import Courier.Settings.Yaml.Scalar

/-!
# Documents of YAML

A node is a scalar, a list or a table, in block style, where the columns say what belongs together,
or in flow style, where brackets do. A node may be given a name and be repeated under it later.
Names of members are scalars that differ from each other; a text with other ones has no tree of
settings.

A text holds at most one document, and an empty text stands for an empty table.

## Main definitions

* `Yaml.blockNode`, `Yaml.flowNode`: nodes.
* `Yaml.read?`: the tree of a text.
-/

namespace Courier.Settings.Yaml

/-- A name that is given to a node, and its tag. -/
structure Properties where
  anchor : Option String := none
  tag : Option String := none

/-- Whether a character may stand in names of nodes and in tags. -/
def isWordChar (c : Char) : Bool :=
  !isBlank c && c != '\n' && !isFlowMark c

/-- Takes the properties in front of a node, at most `limit` of them, and the blanks behind
them. -/
def properties : (limit : Nat) → Properties → Reader Properties
  | 0, _ => failure
  | limit + 1, p => do
    match (← get).rest with
    | '&' :: _ =>
      skip 1
      let name ← taken isWordChar
      demand (!name.isEmpty && p.anchor.isNone && opensBlank (← get).rest)
      skipBlanks
      properties limit { p with anchor := some (String.ofList name) }
    | '!' :: _ =>
      let tag ← taken isWordChar
      demand p.tag.isNone
      -- The handle of a tag is one of the two that every document has.
      demand (!('!' ∈ tag.drop 1) || ['!', '!'].isPrefixOf tag)
      skipBlanks
      properties limit { p with tag := some (String.ofList tag) }
    | _ => return p

/-- Whether there are properties. -/
def Properties.isEmpty (p : Properties) : Bool :=
  p.anchor.isNone && p.tag.isNone

/-- Keeps a node under its name. -/
def Properties.keep (p : Properties) (n : Node) : Reader Node := do
  match p.anchor with
  | some name => modify fun c => { c with anchors := (name, n) :: c.anchors }
  | none => pure ()
  return n

/-- The scalar with a plain spelling. -/
def Properties.plainAtom (p : Properties) (s : String) : Node :=
  .atom <| match p.tag with
    | some tag => .ofTagged tag s
    | none => .ofPlain s

/-- The node without a spelling. -/
def Properties.nothing (p : Properties) : Reader Node :=
  p.keep (match p.tag with
    | some tag => .atom (.ofTagged tag "")
    | none => .empty)

/-- Takes the name of a node, and gives the node. -/
def aliasNode : Reader Node := do
  skip 1
  let name ← taken isWordChar
  match (← get).anchors.lookup (String.ofList name) with
  | some n => return n
  | none => failure

/-- Whether the colon behind the name of a member stands here, perhaps behind blanks. -/
def colonAhead : Reader Bool := do
  return ((← get).past isBlank).isIndicator ':'

/-- Takes a scalar in quotes. -/
def quotedScalar (outer : Int) : Reader String := do
  let c ← get
  skip 1
  if c.rest.head? = some '"' then doubleQuoted outer (c.rest.length + 1) [] []
  else quoted outer (c.rest.length + 1) [] []

/-- Whether a list entry begins here. -/
def atEntry (c : Cursor) : Bool :=
  c.isIndicator '-'

/-- Whether a quote stands here. -/
def atQuote (c : Cursor) : Bool :=
  c.rest.head? = some '"' || c.rest.head? = some '\''

/-- Goes over blanks, comments and ends of lines inside brackets. The lines begin no further to
the left than the collection around the brackets. -/
def flowSeparate (outer : Int) : Reader Unit := do
  let crossed ← separate
  let c ← get
  demand (!c.atEnd && (!crossed || outer ≤ c.column))

/-- Adds a member to a table, unless there is one with that name. -/
def addMember (members : List (Atom × Tree)) (name value : Node) :
    Reader (List (Atom × Tree)) := do
  match name.name?, value.tree? with
  | some a, some t =>
    demand (members.all (·.1 ≠ a))
    return members ++ [(a, t)]
  | _, _ => failure

/-- The table of members. -/
def tableNode (members : List (Atom × Tree)) : Reader Node :=
  match tableOf? members with
  | some t => return .tree t
  | none => failure

/-- Whether a node ends here inside brackets. -/
def atFlowEnd (c : Cursor) : Bool :=
  match c.rest with
  | ',' :: _ | ']' :: _ | '\x7d' :: _ => true
  | _ => false

/-- Whether the colon behind a name stands here inside brackets. Behind a name in quotes or
brackets it needs no blank. -/
def atFlowColon (adjacent : Bool) (c : Cursor) : Bool :=
  match c.rest with
  | ':' :: rest => adjacent || opensBlank rest || rest.head?.any isFlowMark
  | _ => false

mutual

/-- Takes a node inside brackets. -/
def flowNode (outer : Int) : (fuel : Nat) → Reader Node
  | 0 => failure
  | fuel + 1 => do
    let p ← properties 3 {}
    flowSeparate outer
    let c ← get
    if atFlowEnd c ∨ c.isIndicator ':' then
      demand (!p.isEmpty)
      p.nothing
    else
      match c.rest with
      | '[' :: _ =>
        skip 1
        p.keep (← flowItems outer fuel [])
      | '\x7b' :: _ =>
        skip 1
        p.keep (← flowMembers outer fuel [])
      | '*' :: _ =>
        demand p.isEmpty
        aliasNode
      | _ =>
        if atQuote c then p.keep (.atom (.text (← quotedScalar outer)))
        else p.keep (p.plainAtom (← plain true outer))

/-- Takes what stands behind a name inside brackets, if a colon follows it. -/
def flowValue? (outer : Int) (adjacent : Bool) : (fuel : Nat) → Reader (Option Node)
  | 0 => failure
  | fuel + 1 => do
    let right := atFlowColon adjacent (← get)
    flowSeparate outer
    if !right && !atFlowColon false (← get) then return none
    skip 1
    flowSeparate outer
    if atFlowEnd (← get) then return some .empty
    return some (← flowNode outer fuel)

/-- Takes the items of a list up to its bracket. -/
def flowItems (outer : Int) : (fuel : Nat) → List Tree → Reader Node
  | 0, _ => failure
  | fuel + 1, items => do
    flowSeparate outer
    let c ← get
    if c.rest.head? = some ']' then
      skip 1
      return .tree (.list none items)
    let n ← flowNode outer fuel
    let n ← match ← flowValue? outer (atQuote c) fuel with
      | some v => tableNode (← addMember [] n v)
      | none => pure n
    match n.tree?, (← get).rest with
    | some t, ',' :: _ =>
      skip 1
      flowItems outer fuel (items ++ [t])
    | some t, ']' :: _ => flowItems outer fuel (items ++ [t])
    | _, _ => failure

/-- Takes the members of a table up to its brace. -/
def flowMembers (outer : Int) : (fuel : Nat) → List (Atom × Tree) → Reader Node
  | 0, _ => failure
  | fuel + 1, members => do
    flowSeparate outer
    let c ← get
    if c.rest.head? = some '\x7d' then
      skip 1
      tableNode members
    else
      let n ← flowNode outer fuel
      let v ← flowValue? outer (atQuote c) fuel
      let members ← addMember members n (v.getD .empty)
      match (← get).rest with
      | ',' :: _ =>
        skip 1
        flowMembers outer fuel members
      | '\x7d' :: _ => flowMembers outer fuel members
      | _ => failure

end

/-- A scalar on one line, and whether it can be the name of a member. -/
def scalarOnLine (outer : Int) (p : Properties) : Reader (Node × Bool) := do
  let c ← get
  if c.rest.head? = some '*' then
    demand p.isEmpty
    return (← aliasNode, true)
  else if atQuote c then
    let n ← p.keep (.atom (.text (← quotedScalar outer)))
    let used := c.rest.take (c.rest.length - (← get).rest.length)
    return (n, !('\n' ∈ used))
  else
    demand (opensPlain false c.rest)
    let cs ← plainLine false
    if ← colonAhead then return (← p.keep (p.plainAtom (String.ofList cs)), true)
    let s ← plainMore false outer (← get).rest.length cs
    return (← p.keep (p.plainAtom (String.ofList s)), false)

/-- Whether a node to the right of the column `outer` begins here. Where `dash` is set, a list may
begin at that column. -/
def isInside (outer : Int) (dash : Bool) (c : Cursor) : Bool :=
  !c.atEnd && (outer < c.column || (dash && outer = c.column && atEntry c))

mutual

/-- Takes a node in block style, to the right of the column `outer`. Where `fresh` is set, a list
or a table may begin here; the others are scalars and flow collections. -/
def blockNode (outer : Int) (fresh dash : Bool) : (fuel : Nat) → Reader Node
  | 0 => failure
  | fuel + 1 => do
    let c ← get
    if !isInside outer dash c then return .empty
    let p ← properties 3 {}
    if p.isEmpty then blockContent outer fresh c.column p fuel
    else if ← separate then
      if isInside outer dash (← get) then
        p.keep (← blockContent outer true (← get).column { p with anchor := none } fuel)
      else p.nothing
    else if (← get).atEnd then p.nothing
    else blockContent outer fresh c.column p fuel

/-- Takes a node in block style behind its properties. A table that begins here has its names in
the column `start`. -/
def blockContent (outer : Int) (fresh : Bool) (start : Nat) (p : Properties) :
    (fuel : Nat) → Reader Node
  | 0 => failure
  | fuel + 1 => do
    let c ← get
    if atEntry c then
      demand (fresh && !c.tabbed && c.column == start)
      blockItems c.column fuel []
    else
      match c.rest with
      | '|' :: _ | '>' :: _ =>
        p.keep (.atom (.text (← block outer)))
      | '[' :: _ =>
        skip 1
        let n ← flowItems outer fuel []
        demand (!(← colonAhead))
        p.keep n
      | '\x7b' :: _ =>
        skip 1
        let n ← flowMembers outer fuel []
        demand (!(← colonAhead))
        p.keep n
      | _ =>
        let (n, single) ← scalarOnLine outer p
        if ← colonAhead then
          demand (fresh && single && !c.tabbed)
          skipBlanks
          blockMembers start fuel n []
        else return n

/-- Takes the entries of a list whose dashes stand in the column `start`, from a dash on. -/
def blockItems (start : Nat) : (fuel : Nat) → List Tree → Reader Node
  | 0, _ => failure
  | fuel + 1, items => do
    skip 1
    let _ ← separate
    let n ← blockNode start true false fuel
    match n.tree? with
    | none => failure
    | some t =>
      let items := items ++ [t]
      let _ ← separate
      let c ← get
      if c.atEnd then return .tree (.list none items)
      demand (c.leading && c.column ≤ start)
      if c.column = start ∧ atEntry c then
        demand (!c.tabbed)
        blockItems start fuel items
      else return .tree (.list none items)

/-- Takes the members of a table whose names stand in the column `start`, from the colon behind
`name` on. -/
def blockMembers (start : Nat) : (fuel : Nat) → (name : Node) → List (Atom × Tree) → Reader Node
  | 0, _, _ => failure
  | fuel + 1, name, members => do
    skip 1
    let crossed ← separate
    let value ← blockNode start crossed true fuel
    let members ← addMember members name value
    let _ ← separate
    let c ← get
    if c.atEnd then tableNode members
    else
      demand (c.leading && c.column ≤ start)
      if c.column < start then tableNode members
      else
        demand (!c.tabbed)
        let p ← properties 3 {}
        let (name, single) ← scalarOnLine start p
        demand (single && (← colonAhead))
        skipBlanks
        blockMembers start fuel name members

end

/-- Goes over the lines of directives, and tells whether there are any. -/
def directives : (limit : Nat) → Reader Bool
  | 0 => return false
  | limit + 1 => do
    let _ ← separate
    let c ← get
    if c.column = 0 ∧ c.rest.head? = some '%' then
      modify (·.past (· ≠ '\n'))
      let _ ← directives limit
      return true
    else return false

/-- Goes over the markers behind a document. -/
def closings : (limit : Nat) → Reader Unit
  | 0 => return
  | limit + 1 => do
    let _ ← separate
    if (← get).isMarker "..." then
      skip 3
      closings limit

/-- Takes the only document of a text, if there is one. -/
def document : Reader (Option Node) := do
  let limit := (← get).rest.length + 2
  closings limit
  let directed ← directives limit
  let c ← get
  if c.rest.isEmpty then
    demand !directed
    return none
  let explicit := c.isMarker "---"
  demand (explicit || !directed)
  if explicit then skip 3
  let crossed ← separate
  let n ← blockNode (-1) (crossed || !explicit) false (4 * limit)
  closings limit
  demand (← get).rest.isEmpty
  return some n

/-- The ends of lines of a text as line feeds. -/
def withLineFeeds : List Char → List Char
  | '\r' :: '\n' :: cs => '\n' :: withLineFeeds cs
  | '\r' :: cs => '\n' :: withLineFeeds cs
  | c :: cs => c :: withLineFeeds cs
  | [] => []

/-- The tree of settings that a text describes. -/
def read? (s : String) : Option Tree := do
  let (n, _) ← document.run { rest := withLineFeeds s.toList }
  match n with
  | none => return .table none []
  | some n => n.tree?

end Courier.Settings.Yaml
