import Courier.Settings.Yaml.Atom

/-!
# Reading along a YAML text

A cursor is what is left of the text together with what the rules of YAML ask about its place: the
column, whether only blanks stand in front of it on its line, and whether a tab is among these.

## Main definitions

* `Yaml.Cursor`: a place in a text.
* `Yaml.Reader`: what reads on from a place, or refuses the text.
* `Yaml.separate`: goes over blanks, comments and ends of lines.
-/

namespace Courier.Settings.Yaml

/-- A place in a text. -/
structure Cursor where
  rest : List Char
  column : Nat := 0
  /-- Whether only blanks stand before on the line. -/
  leading : Bool := true
  /-- Whether a blank stands right before, or nothing on the line. -/
  spaced : Bool := true
  /-- Whether a tab is among the blanks at the front of the line. -/
  tabbed : Bool := false
  /-- The nodes that have been given names so far. -/
  anchors : List (String × Node) := []

/-- A space or a tab. -/
def isBlank (c : Char) : Bool :=
  c = ' ' || c = '\t'

/-- A character of flow collections. -/
def isFlowMark (c : Char) : Bool :=
  c = ',' || c = '[' || c = ']' || c = '\x7b' || c = '\x7d'

/-- Whether a text begins with a blank or the end of a line, or is empty. -/
def opensBlank : List Char → Bool
  | [] => true
  | c :: _ => isBlank c || c = '\n'

namespace Cursor

/-- The place behind the next character. -/
def step (c : Cursor) : Cursor :=
  match c.rest with
  | [] => c
  | '\n' :: rest =>
    { c with rest, column := 0, leading := true, spaced := true, tabbed := false }
  | x :: rest =>
    { c with
      rest
      column := c.column + 1
      leading := c.leading && isBlank x
      spaced := isBlank x
      tabbed := c.tabbed || (c.leading && x = '\t') }

/-- The place behind the next `n` characters. -/
def advance : (n : Nat) → Cursor → Cursor
  | 0, c => c
  | n + 1, c => advance n c.step

/-- The place behind the characters of a kind. -/
def past (p : Char → Bool) (c : Cursor) : Cursor :=
  c.advance (c.rest.takeWhile p).length

/-- Whether the marker `mark` of a document stands here. -/
def isMarker (mark : String) (c : Cursor) : Bool :=
  c.column == 0 && mark.toList.isPrefixOf c.rest && opensBlank (c.rest.drop 3)

/-- Whether the document ends here. -/
def atEnd (c : Cursor) : Bool :=
  c.rest.isEmpty || c.isMarker "---" || c.isMarker "..."

/-- Whether the indicator `mark` stands here, with a blank behind it. -/
def isIndicator (mark : Char) (c : Cursor) : Bool :=
  match c.rest with
  | x :: rest => x == mark && opensBlank rest
  | [] => false

/-- Goes over blanks, comments and ends of lines, and tells whether a line has ended. -/
def separated : (limit : Nat) → (crossed : Bool) → Cursor → Bool × Cursor
  | 0, crossed, c => (crossed, c)
  | limit + 1, crossed, c =>
    let c := c.past isBlank
    match c.rest with
    | '\n' :: _ => separated limit true c.step
    | '#' :: _ =>
      if c.spaced then separated limit crossed (c.past (· ≠ '\n')) else (crossed, c)
    | _ => (crossed, c)

end Cursor

/-- What reads on from a place, or refuses the text. -/
abbrev Reader : Type → Type :=
  StateT Cursor Option

/-- Goes over blanks, comments and ends of lines, and tells whether a line has ended. -/
def separate : Reader Bool := do
  let c ← get
  let (crossed, c) := c.separated (c.rest.length + 1) false
  set c
  return crossed

/-- Goes over `n` characters. -/
def skip (n : Nat) : Reader Unit :=
  modify (·.advance n)

/-- Goes over the blanks. -/
def skipBlanks : Reader Unit :=
  modify (·.past isBlank)

/-- Takes the characters of a kind. -/
def taken (p : Char → Bool) : Reader (List Char) := do
  let cs := (← get).rest.takeWhile p
  skip cs.length
  return cs

/-- Goes on only if a condition holds. -/
def demand (b : Bool) : Reader Unit :=
  if b then pure () else failure

end Courier.Settings.Yaml
