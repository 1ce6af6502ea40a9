import Courier.Settings.Yaml.Cursor

/-!
# Spellings of scalars

A scalar is plain, in single or double quotes, or a block of lines below its indicator. Outside of
blocks a scalar may go over several lines: the end of a line is then a space, and each empty line
is the end of a line. The lines behind the first stand further to the right than the collection
that the scalar is in.

## Main definitions

* `Yaml.plainLine`, `Yaml.plain`: plain scalars, on one line and on several.
* `Yaml.quoted`, `Yaml.doubleQuoted`: scalars in quotes.
* `Yaml.block`: blocks of lines.
-/

namespace Courier.Settings.Yaml

/-- The length of the plain scalar at the front of a line, without the blanks behind it. `pos`
counts what has been seen, `last` ends at the last character that is no blank, and `spaced` tells
whether a blank stands right before. -/
def plainLength (flow : Bool) : (pos last : Nat) → (spaced : Bool) → List Char → Nat
  | _, last, _, [] => last
  | pos, last, spaced, c :: cs =>
    if c = '\n' then last
    else if isBlank c then plainLength flow (pos + 1) last true cs
    else if c = '#' ∧ spaced then last
    else if c = ':' ∧ (opensBlank cs ∨ (flow ∧ cs.head?.any isFlowMark)) then last
    else if flow ∧ isFlowMark c then last
    else plainLength flow (pos + 1) (pos + 1) false cs

/-- The characters with which no plain scalar begins. -/
def plainBarred : List Char :=
  [',', '[', ']', '\x7b', '\x7d', '#', '&', '*', '!', '|', '>', '\'', '"', '%', '@', '\x60']

/-- Whether a plain scalar may begin with a text. -/
def opensPlain (flow : Bool) : List Char → Bool
  | [] => false
  | c :: cs =>
    if c = '-' then !opensBlank cs && !(flow && cs.head?.any isFlowMark)
    else if c = '?' then !opensBlank cs
    else if c = ':' then !opensBlank cs && !(flow && cs.head?.any isFlowMark)
    else if flow ∧ (c = '|' ∨ c = '>') then true
    else !plainBarred.contains c && !isBlank c && c != '\n'

/-- Takes the part of a plain scalar that is on this line. -/
def plainLine (flow : Bool) : Reader (List Char) := do
  let c ← get
  let cs := c.rest.take (plainLength flow 0 0 c.spaced c.rest)
  skip cs.length
  return cs

/-- What stands for ends of lines between two lines of a scalar, the first of which is one of
them. -/
def fold (breaks : Nat) : List Char :=
  if breaks = 1 then [' '] else List.replicate (breaks - 1) '\n'

/-- Goes over ends of lines and the blanks at the front of lines, and counts the former. -/
def breaks : (limit : Nat) → (count : Nat) → Cursor → Nat × Cursor
  | 0, count, c => (count, c)
  | limit + 1, count, c =>
    let c := c.past isBlank
    match c.rest with
    | '\n' :: _ => breaks limit (count + 1) c.step
    | _ => (count, c)

/-- Takes the lines of a plain scalar behind its first one. `outer` is the column of the
collection around it. -/
def plainMore (flow : Bool) (outer : Int) : (limit : Nat) → (acc : List Char) → Reader (List Char)
  | 0, acc => return acc
  | limit + 1, acc => do
    let c ← get
    let (count, next) := breaks (c.rest.length + 1) 0 c
    let length := plainLength flow 0 0 next.spaced next.rest
    if count = 0 ∨ next.atEnd ∨ length = 0 ∨ (!flow ∧ (next.column : Int) ≤ outer) then return acc
    set next
    let cs ← plainLine flow
    plainMore flow outer limit (acc ++ fold count ++ cs)

/-- Takes a plain scalar. -/
def plain (flow : Bool) (outer : Int) : Reader String := do
  demand (opensPlain flow (← get).rest)
  let cs ← plainLine flow
  return String.ofList (← plainMore flow outer (← get).rest.length cs)

/-- Goes over ends of lines inside quotes, and gives what they stand for. -/
def quotedBreaks (outer : Int) : Reader (List Char) := do
  let c ← get
  let (count, next) := breaks (c.rest.length + 1) 0 c
  demand (!next.atEnd && outer < next.column)
  set next
  return fold count

/-- Takes the text of a scalar in single quotes, up to the closing quote. What has been taken
stands in `acc`, and blanks behind it in `blanks`. -/
def quoted (outer : Int) : (limit : Nat) → (acc blanks : List Char) → Reader String
  | 0, _, _ => failure
  | limit + 1, acc, blanks => do
    match (← get).rest with
    | [] => failure
    | '\'' :: '\'' :: _ =>
      skip 2
      quoted outer limit (acc ++ blanks ++ ['\'']) []
    | '\'' :: _ =>
      skip 1
      return String.ofList (acc ++ blanks)
    | '\n' :: _ => quoted outer limit (acc ++ (← quotedBreaks outer)) []
    | c :: _ =>
      skip 1
      if isBlank c then quoted outer limit acc (blanks ++ [c])
      else quoted outer limit (acc ++ blanks ++ [c]) []

/-- The characters that have a letter of their own behind a backslash. -/
def escapes : List (Char × Char) :=
  [('0', '\x00'), ('a', '\x07'), ('b', '\x08'), ('t', '\t'), ('\t', '\t'), ('n', '\n'),
    ('v', '\x0b'), ('f', '\x0c'), ('r', '\r'), ('e', '\x1b'), (' ', ' '), ('"', '"'), ('/', '/'),
    ('\\', '\\'), ('N', '\u0085'), ('_', '\u00a0'), ('L', '\u2028'), ('P', '\u2029')]

/-- The character with the number that `width` hexadecimal digits give. -/
def numbered? (width : Nat) (cs : List Char) : Option Char := do
  let digits := cs.take width
  if digits.length ≠ width then none
  let values ← digits.mapM (digit? 16)
  let n := values.foldl (fun n d => 16 * n + d) 0
  if n.isValidChar then some (Char.ofNat n) else none

/-- Takes what follows a backslash in double quotes, and gives the character that it stands
for. -/
def escaped : Reader Char := do
  match (← get).rest with
  | [] => failure
  | c :: cs =>
    let width := if c = 'x' then 2 else if c = 'u' then 4 else if c = 'U' then 8 else 0
    skip (1 + width)
    match escapes.lookup c with
    | some x => return x
    | none =>
      if width = 0 then failure
      match numbered? width cs with
      | some x => return x
      | none => failure

/-- Takes the text of a scalar in double quotes, up to the closing quote. A backslash at the end
of a line takes the end of the line away. -/
def doubleQuoted (outer : Int) : (limit : Nat) → (acc blanks : List Char) → Reader String
  | 0, _, _ => failure
  | limit + 1, acc, blanks => do
    match (← get).rest with
    | [] => failure
    | '"' :: _ =>
      skip 1
      return String.ofList (acc ++ blanks)
    | '\\' :: '\n' :: _ =>
      skip 2
      let c ← get
      let (count, next) := breaks (c.rest.length + 1) 0 c
      demand (!next.atEnd && outer < next.column)
      set next
      doubleQuoted outer limit (acc ++ blanks ++ List.replicate count '\n') []
    | '\\' :: _ =>
      skip 1
      let x ← escaped
      doubleQuoted outer limit (acc ++ blanks ++ [x]) []
    | '\n' :: _ => doubleQuoted outer limit (acc ++ (← quotedBreaks outer)) []
    | c :: _ =>
      skip 1
      if isBlank c then doubleQuoted outer limit acc (blanks ++ [c])
      else doubleQuoted outer limit (acc ++ blanks ++ [c]) []

/-- What happens to the ends of lines at the end of a block. -/
inductive Chomping where
  | clip
  | strip
  | keep
  deriving DecidableEq

/-- The header of a block: its chomping, and how far its lines are indented, if that is given. -/
structure BlockHeader where
  chomping : Chomping := .clip
  indent : Option Nat := none

/-- Takes the header of a block behind its indicator. -/
def blockHeader : (limit : Nat) → BlockHeader → Reader BlockHeader
  | 0, h => return h
  | limit + 1, h => do
    match (← get).rest with
    | '+' :: _ =>
      skip 1
      blockHeader limit { h with chomping := .keep }
    | '-' :: _ =>
      skip 1
      blockHeader limit { h with chomping := .strip }
    | c :: _ =>
      if '1' ≤ c ∧ c ≤ '9' then
        skip 1
        blockHeader limit { h with indent := some (c.toNat - '0'.toNat) }
      else return h
    | [] => return h

/-- The lines of a text. -/
def linesOf (cs : List Char) : List (List Char) :=
  cs.foldr (fun c ls =>
    match c, ls with
    | '\n', ls => [] :: ls
    | c, l :: ls => (c :: l) :: ls
    | c, [] => [[c]]) [[]]

/-- The number of spaces at the front of a line. -/
def indentOf (line : List Char) : Nat :=
  (line.takeWhile (· = ' ')).length

/-- Whether a line holds nothing but spaces. -/
def isEmptyLine (line : List Char) : Bool :=
  line.all (· = ' ')

/-- The lines that belong to a block with the given indentation. -/
def blockLines (indent : Nat) (lines : List (List Char)) : List (List Char) :=
  lines.takeWhile fun l => (isEmptyLine l && l.length ≤ indent) || indent ≤ indentOf l

/-- The text of a block while it is put together. -/
structure BlockText where
  text : List Char := []
  /-- Whether a line has been taken whose end is still open. -/
  pending : Bool := false
  /-- The number of empty lines since. -/
  empty : Nat := 0
  /-- Whether that line begins with a blank. -/
  inset : Bool := false

/-- Adds a line to the text of a block. -/
def BlockText.add (folded : Bool) (b : BlockText) (line : List Char) : BlockText :=
  if line.isEmpty then { b with empty := b.empty + 1 }
  else
    let inset := line.head?.any isBlank
    let joint :=
      if !b.pending then []
      else if folded ∧ !b.inset ∧ !inset then if b.empty = 0 then [' '] else []
      else ['\n']
    { text := b.text ++ joint ++ List.replicate b.empty '\n' ++ line, pending := true, inset }

/-- The text of a block. -/
def BlockText.close (chomping : Chomping) (b : BlockText) : List Char :=
  let last := if b.pending then ['\n'] else []
  match chomping with
  | .strip => b.text
  | .clip => b.text ++ last
  | .keep => b.text ++ last ++ List.replicate b.empty '\n'

/-- Takes a block, from its indicator on. `outer` is the column of the collection around it. -/
def block (outer : Int) : Reader String := do
  let folded := (← get).rest.head? = some '>'
  skip 1
  let h ← blockHeader 2 {}
  skipBlanks
  let c ← get
  let c := if c.rest.head? = some '#' ∧ c.spaced then c.past (· ≠ '\n') else c
  demand (c.rest.isEmpty || c.rest.head? = some '\n')
  let c := c.step
  -- The text behind the last line end is no line.
  let all := linesOf c.rest
  let lines := if all.getLast? = some [] then all.dropLast else all
  let least := (outer + 1).toNat
  let indent := match h.indent with
    | some n => outer.toNat + n
    | none => max least (((lines.find? (!isEmptyLine ·)).map indentOf).getD 0)
  let own := blockLines indent lines
  set (c.advance ((own.map fun l => l.length + 1).foldr (· + ·) 0))
  let text := (own.map (·.drop indent)).foldl (BlockText.add folded) {}
  return String.ofList (text.close h.chomping)

end Courier.Settings.Yaml
