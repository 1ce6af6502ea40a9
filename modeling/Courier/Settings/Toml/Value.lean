import Courier.Decimal.Reading
import Courier.Settings.Tree

/-!
# Values of TOML

Values without parts are strings in four forms, whole numbers in four bases, numbers with a
fraction, truth values, and dates with times. The latter are texts in settings, in their usual
form.

All ends of lines are line feeds here. A reader takes what it reads from the front of the text.

## Main definitions

* `Toml.Reader`: what takes something from the front of a text, or refuses it.
* `Toml.string?`, `Toml.word?`: strings, and the values that are written without quotes.
-/

namespace Courier.Settings.Toml

/-- What takes something from the front of a text, or refuses it. -/
abbrev Reader : Type → Type :=
  StateT (List Char) Option

/-- Goes on only if a condition holds. -/
def demand (b : Bool) : Reader Unit :=
  if b then pure () else failure

/-- Takes the characters of a kind. -/
def taken (p : Char → Bool) : Reader (List Char) := do
  let cs ← get
  set (cs.dropWhile p)
  return cs.takeWhile p

/-- A space or a tab. -/
def isBlank (c : Char) : Bool :=
  c = ' ' || c = '\t'

/-- A character that may stand in strings and comments as it is. -/
def isShown (c : Char) : Bool :=
  (' ' ≤ c && c != '\x7f') || c = '\t'

/-- The value of digits of a base. -/
def number? (base : Nat) (cs : List Char) : Option Nat := do
  let value? (c : Char) : Option Nat :=
    let n :=
      if c.isDigit then c.toNat - '0'.toNat
      else if 'a' ≤ c ∧ c ≤ 'f' then c.toNat - 'a'.toNat + 10
      else if 'A' ≤ c ∧ c ≤ 'F' then c.toNat - 'A'.toNat + 10
      else base
    if n < base then some n else none
  if cs.isEmpty then none
  return (← cs.mapM value?).foldl (fun n d => n * base + d) 0

/-- The characters that have a letter of their own behind a backslash. -/
def escapes : List (Char × Char) :=
  [('b', '\x08'), ('t', '\t'), ('n', '\n'), ('f', '\x0c'), ('r', '\r'), ('"', '"'), ('\\', '\\')]

/-- Takes what follows a backslash, and gives the character that it stands for. -/
def escaped : Reader Char := do
  match ← get with
  | [] => failure
  | c :: cs =>
    match escapes.lookup c with
    | some x =>
      set cs
      return x
    | none =>
      let width := if c = 'u' then 4 else if c = 'U' then 8 else 0
      demand (width != 0 && cs.length ≥ width)
      set (cs.drop width)
      match number? 16 (cs.take width) with
      | some n =>
        demand (decide n.isValidChar)
        return Char.ofNat n
      | none => failure

/-- Takes a string on one line up to its closing quote. -/
def lineString (quote : Char) : (limit : Nat) → (acc : List Char) → Reader String
  | 0, _ => failure
  | limit + 1, acc => do
    match ← get with
    | [] => failure
    | c :: cs =>
      set cs
      if c = quote then return String.ofList acc.reverse
      if c = '\\' ∧ quote = '"' then
        let x ← escaped
        lineString quote limit (x :: acc)
      else
        demand (isShown c)
        lineString quote limit (c :: acc)

/-- Whether a text begins with three quotes. -/
def opensTriple (quote : Char) (cs : List Char) : Bool :=
  [quote, quote, quote].isPrefixOf cs

/-- Takes a string over several lines up to its closing quotes. Two quotes may stand right before
these. -/
def linesString (quote : Char) : (limit : Nat) → (acc : List Char) → Reader String
  | 0, _ => failure
  | limit + 1, acc => do
    let cs ← get
    match cs with
    | [] => failure
    | c :: rest =>
      if opensTriple quote cs then
        let run := (cs.takeWhile (· = quote)).length
        demand (run ≤ 5)
        set (cs.drop run)
        return String.ofList (acc.reverse ++ List.replicate (run - 3) quote)
      set rest
      if c = '\\' ∧ quote = '"' then
        -- A backslash at the end of a line takes away all blanks and ends of lines behind it.
        match rest.dropWhile isBlank with
        | '\n' :: more =>
          set (more.dropWhile fun c => isBlank c || c = '\n')
          linesString quote limit acc
        | _ =>
          let x ← escaped
          linesString quote limit (x :: acc)
      else
        demand (isShown c || c = '\n')
        linesString quote limit (c :: acc)

/-- Takes a string, if a quote stands at the front. Strings over several lines are refused where
`lines` is not set. -/
def string? (lines : Bool) : Reader (Option String) := do
  let cs ← get
  match cs with
  | c :: rest =>
    if c = '"' ∨ c = '\'' then
      if lines ∧ opensTriple c cs then
        let body := cs.drop 3
        set (if body.head? = some '\n' then body.drop 1 else body)
        return some (← linesString c (cs.length + 1) [])
      else
        set rest
        return some (← lineString c (cs.length + 1) [])
    else return none
  | [] => return none

/-- The digits of a number in which single underscores may stand between two digits. -/
def digits? (p : Char → Bool) : List Char → Option (List Char)
  | [] => none
  | [c] => if p c then some [c] else none
  | c :: '_' :: cs => if p c then (digits? p cs).map (c :: ·) else none
  | c :: cs => if p c then (digits? p cs).map (c :: ·) else none

/-- The decimal digits of a number, of which only a single one is zero at the front. -/
def wholeDigits? (cs : List Char) : Option (List Char) := do
  let ds ← digits? Char.isDigit cs
  if ds.head? = some '0' ∧ 1 < ds.length then none else some ds

/-- A whole number of 64 bits. -/
def bounded? (n : Int) : Option Scalar :=
  if FitsInt64 n then some (.int n) else none

/-- A whole number. -/
def whole? (cs : List Char) : Option Scalar := do
  let marked (base : Nat) (cs : List Char) : Option Scalar := do
    bounded? (← number? base (← digits? Char.isAlphanum cs))
  match cs with
  | '0' :: 'x' :: cs => marked 16 cs
  | '0' :: 'o' :: cs => marked 8 cs
  | '0' :: 'b' :: cs => marked 2 cs
  | cs =>
    let (negative, cs) := Decimal.splitSign cs
    let n ← number? 10 (← wholeDigits? cs)
    bounded? (if negative then -n else n)

/-- A number with a fraction or an exponent. -/
def real? (cs : List Char) : Option Scalar := do
  let (negative, cs) := Decimal.splitSign cs
  let signed (x : Float) : Scalar := .float (if negative then -x else x)
  if cs = "inf".toList then return signed (1.0 / 0.0)
  if cs = "nan".toList then return signed (0.0 / 0.0)
  let isEnd (c : Char) := c = '.' || c = 'e' || c = 'E'
  let whole ← wholeDigits? (cs.takeWhile (!isEnd ·))
  let rest := cs.dropWhile (!isEnd ·)
  let (fraction, rest) ← match rest with
    | '.' :: rest => do
      let ds ← digits? Char.isDigit (rest.takeWhile (!isEnd ·))
      pure ('.' :: ds, rest.dropWhile (!isEnd ·))
    | rest => pure ([], rest)
  let exponent ← match rest with
    | [] => pure []
    | '.' :: _ => none
    | _ :: rest => do
      let (negative, ds) := Decimal.splitSign rest
      let ds ← digits? Char.isDigit ds
      pure ('e' :: (if negative then '-' :: ds else ds))
  let x ← Decimal.float? (String.ofList (whole ++ fraction ++ exponent))
  if (fraction.isEmpty ∧ exponent.isEmpty) ∨ x.isInf then none else some (signed x)

/-- Takes `width` digits from the front of a text. -/
def field? (width : Nat) (cs : List Char) : Option (Nat × List Char) := do
  let ds := cs.take width
  if ds.length = width ∧ ds.all Char.isDigit then return (← number? 10 ds, cs.drop width)
  none

/-- The number of days of a month. -/
def daysIn (year month : Nat) : Nat :=
  if month = 2 then
    if year % 4 = 0 ∧ (year % 100 ≠ 0 ∨ year % 400 = 0) then 29 else 28
  else if month = 4 ∨ month = 6 ∨ month = 9 ∨ month = 11 then 30
  else 31

/-- Takes a date from the front of a text. -/
def date? (cs : List Char) : Option (List Char × List Char) := do
  match ← field? 4 cs with
  | (year, '-' :: rest) =>
    match ← field? 2 rest with
    | (month, '-' :: rest) =>
      let (day, rest) ← field? 2 rest
      if 1 ≤ month ∧ month ≤ 12 ∧ 1 ≤ day ∧ day ≤ daysIn year month then
        return (cs.take 10, rest)
      none
    | _ => none
  | _ => none

/-- The digits of a fraction of a second, of which nine count, without zeros at the end. -/
def secondFraction (ds : List Char) : List Char :=
  match ((ds.take 9).reverse.dropWhile (· = '0')).reverse with
  | [] => []
  | ds => '.' :: ds

/-- Takes a time from the front of a text. -/
def time? (cs : List Char) : Option (List Char × List Char) := do
  match ← field? 2 cs with
  | (hour, ':' :: rest) =>
    match ← field? 2 rest with
    | (minute, ':' :: rest) =>
      let (second, rest) ← field? 2 rest
      if 24 ≤ hour ∨ 60 ≤ minute ∨ 61 ≤ second then none
      match rest with
      | '.' :: rest =>
        let ds := rest.takeWhile Char.isDigit
        if ds.isEmpty then none
        return (cs.take 8 ++ secondFraction ds, rest.dropWhile Char.isDigit)
      | rest => return (cs.take 8, rest)
    | _ => none
  | _ => none

/-- The text of an offset from universal time that makes up the rest of a text. -/
def offset? : List Char → Option (List Char)
  | [] => some []
  | ['Z'] | ['z'] => some ['Z']
  | sign :: cs => do
    if sign ≠ '+' ∧ sign ≠ '-' then none
    match ← field? 2 cs with
    | (hour, ':' :: rest) =>
      let (minute, rest) ← field? 2 rest
      if 24 ≤ hour ∨ 60 ≤ minute ∨ !rest.isEmpty then none
      return (if hour = 0 ∧ minute = 0 then '+' else sign) :: cs
    | _ => none

/-- A date, a time, or both with or without an offset. -/
def instant? (cs : List Char) : Option Scalar :=
  match date? cs with
  | some (date, []) => some (.text (String.ofList date))
  | some (date, mark :: rest) => do
    if mark ≠ 'T' ∧ mark ≠ 't' ∧ mark ≠ ' ' then none
    let (time, rest) ← time? rest
    return .text (String.ofList (date ++ 'T' :: time ++ (← offset? rest)))
  | none => do
    let (time, rest) ← time? cs
    if rest.isEmpty then return .text (String.ofList time)
    none

/-- A character of the values that are written without quotes. -/
def isWordChar (c : Char) : Bool :=
  c.isAlphanum || c = '_' || c = '+' || c = '-' || c = '.' || c = ':'

/-- Takes a value that is written without quotes. Between a date and a time a single space may
stand. -/
def word? : Reader (Option Scalar) := do
  let w ← taken isWordChar
  let rest ← get
  let dated := (date? w).any (·.2.isEmpty)
  let w ← match rest with
    | ' ' :: c :: cs =>
      if dated ∧ c.isDigit then
        set (c :: cs)
        pure (w ++ ' ' :: (← taken isWordChar))
      else pure w
    | _ => pure w
  return if w = "true".toList then some (.bool true)
    else if w = "false".toList then some (.bool false)
    else whole? w <|> real? w <|> instant? w

end Courier.Settings.Toml
