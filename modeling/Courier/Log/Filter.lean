import Courier.Decimal.Reading
import Courier.Log

/-!
# Filters of the log

A filter is a list of directives. A directive gives the least level of the entries that are
written, for the parts of the program whose names begin with its target, or for all. Of the
directives for a part the one with the longest target counts, and the last one of these; what no
directive is for is not written. A directive for a span is for entries inside of that span, and
has no effect on others.

## Main definitions

* `Log.Directive`, `Log.Filter`: directives and filters.
* `Log.Filter.read?`, `Log.Filter.readable`: the filter of a text, all of whose directives are
  right, and the filter of those that are.
* `Log.Filter.admits`: whether an entry is written.
-/

namespace Courier.Log

/-- How much is written, from nothing to everything. -/
abbrev Verbosity : Type :=
  Nat

/-- The words for how much is written. -/
def verbosities : List (String × Verbosity) :=
  [("off", 0), ("error", 1), ("warn", 2), ("info", 3), ("debug", 4), ("trace", 5)]

/-- How much has to be written for an entry of this level to be written. -/
def Level.verbosity : Level → Verbosity
  | error => 1
  | warn => 2
  | info => 3

/-- How much a text says is written. -/
def verbosity? (s : String) : Option Verbosity :=
  Decimal.natural? 6 s <|> verbosities.lookup (String.ofList (s.toList.map Char.toLower))

/-- What is written of a part of the program. -/
structure Directive where
  target : String := ""
  verbosity : Verbosity := 5
  /-- Whether the directive is for the entries of a span only. -/
  inSpan : Bool := false
  deriving DecidableEq, Repr

namespace Directive

/-- How much a directive says is written, behind its equals sign. -/
def levelOf? (s : List Char) : Option Verbosity :=
  if s.isEmpty then some 5 else verbosity? (String.ofList s)

/-- Whether a directive may begin with a character. -/
def opens (c : Char) : Bool :=
  c.isAlphanum || c = '-' || c = ':' || c = '_' || c = '['

/-- The directive of a text, whose blanks belong to it. -/
def read? (s : String) : Option Directive := do
  let cs := s.toList
  if !(cs.head?.all opens) then none
  let target := cs.takeWhile fun c => c ≠ '=' ∧ c ≠ '['
  match cs.drop target.length with
  | [] =>
    match verbosity? (String.ofList target) with
    | some v => return { verbosity := v }
    | none => return { target := String.ofList target }
  | '=' :: level => return { target := String.ofList target, verbosity := ← levelOf? level }
  | _ :: inner =>
    match inner.dropWhile (· ≠ ']') with
    | [_] => return { target := String.ofList target, inSpan := true }
    | _ :: '=' :: level =>
      return { target := String.ofList target, verbosity := ← levelOf? level, inSpan := true }
    | _ => none

/-- Whether a directive is for a part of the program. -/
def covers (d : Directive) (part : String) : Bool :=
  !d.inSpan && d.target.toList.isPrefixOf part.toList

end Directive

/-- What is written of the log. -/
structure Filter where
  directives : List Directive
  deriving DecidableEq, Repr

namespace Filter

/-- The texts of the directives in the text of a filter. -/
def partsOf (s : String) : List String :=
  (s.splitOn ",").filter (· ≠ "")

/-- The filter of some directives. Without any only errors are written. -/
def ofDirectives (ds : List Directive) : Filter :=
  ⟨if ds.isEmpty then [{ verbosity := 1 }] else ds⟩

/-- The filter of a text, all of whose directives are right. -/
def read? (s : String) : Option Filter := do
  return ofDirectives (← (partsOf s).mapM Directive.read?)

/-- The filter of those directives in a text that are right. -/
def readable (s : String) : Filter :=
  ofDirectives ((partsOf s).filterMap Directive.read?)

/-- The directive that counts for a part of the program. -/
def directiveFor (f : Filter) (part : String) : Option Directive :=
  (f.directives.filter (·.covers part)).foldl (fun best d =>
    match best with
    | none => some d
    | some b => if d.target.length < b.target.length then best else some d) none

/-- Whether an entry is written. -/
def admits (f : Filter) (e : Entry) : Bool :=
  match f.directiveFor e.target with
  | some d => e.level.verbosity ≤ d.verbosity
  | none => false

end Filter

end Courier.Log
