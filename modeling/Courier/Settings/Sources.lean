import Courier.Settings.Format
import Courier.Text.Lossy
import Courier.Worker.Error

/-!
# Sources of settings

Settings stand in files and in variables of the environment. The format of a file is that of its
ending; a file that is named without its ending is found by trying the endings in turn. Variables
that are settings have names with a certain beginning, in upper or lower case.

## Main definitions

* `Settings.Files`, `Settings.Files.members`: files, and the settings in them.
* `Settings.Environment`, `Settings.Environment.members`: variables, and the settings in them.
-/

namespace Courier.Settings

/-- Files below a directory: their paths, and what they hold. -/
structure Files where
  /-- The directory. -/
  directory : String
  entries : List (String × Bytes) := []

/-- The variables of the environment. -/
abbrev Environment : Type :=
  List (String × String)

namespace Files

/-- The parts of a path, without those that lead nowhere. -/
def partsOf (path : String) : List String :=
  (path.splitOn "/").foldl (fun parts part =>
    if part = "" ∨ part = "." then parts
    else if part = ".." ∧ parts ≠ [] then parts.dropLast
    else parts ++ [part]) []

/-- A path from the root. One that does not begin there begins in the directory. -/
def absolute (f : Files) (path : String) : String :=
  if path.startsWith "/" then path else s!"{f.directory}/{path}"

/-- What the file at a path holds. -/
def find? (f : Files) (path : String) : Option Bytes :=
  let parts := partsOf (f.absolute path)
  (f.entries.find? fun e => partsOf (f.absolute e.1) = parts).map (·.2)

/-- The ending of a file's name, behind its last point. -/
def endingOf (path : String) : Option String :=
  match ((path.splitOn "/").getLastD "").splitOn "." with
  | [] | [_] | ["", _] => none
  | parts => parts.getLast?

/-- The format of the file with a name, its path and what it holds. `known` is the format of the
file if it does not depend on the ending. -/
def locate (f : Files) (known : Option FileFormat) (name : String) :
    Except LoadFault (FileFormat × String × Bytes) :=
  match f.find? name with
  | some content =>
    match known <|> (endingOf name).bind (FileFormat.endings.lookup ·) with
    | some format => .ok (format, name, content)
    | none =>
      let path := f.absolute name
      .error (.unavailable s!"configuration file \"{path}\" is not of a supported file format")
  | none =>
    let tried := FileFormat.endings.filter fun e => known.all (· = e.2)
    match tried.findSome? fun (ending, format) =>
        (f.find? s!"{name}.{ending}").map (format, s!"{name}.{ending}", ·) with
    | some found => .ok found
    | none => .error (.unavailable s!"configuration file \"{name}\" not found")

/-- The mark that may stand at the front of a text file. -/
def byteOrderMark : Bytes :=
  [0xef, 0xbb, 0xbf]

/-- The text of a file, without the mark at its front. -/
def textOf (content : Bytes) : String :=
  Text.lossy (if byteOrderMark.isPrefixOf content then content.drop 3 else content)

/-- The path of a file as it is shown, from the directory on. -/
def shown (path : String) : String :=
  "/".intercalate ((path.splitOn "/").filter fun part => part ≠ "" ∧ part ≠ ".")

/-- The members at the top of a settings file. -/
def members (f : Files) (known : Option FileFormat) (name : String) :
    Except LoadFault (List (String × Tree)) := do
  let (format, path, content) ← f.locate known name
  match format.read? (textOf content) with
  | some (.table _ ms) => return Tree.membersFrom (shown path) ms
  | _ => throw .malformed

end Files

namespace Environment

/-- The beginning of the names of variables that are settings. -/
def marker : String :=
  "lw__"

/-- The name of a setting in the name of its variable. -/
def settingOf (name : String) : Option String :=
  let name := name.toLower
  if marker.toList.isPrefixOf name.toList then
    some ((String.ofList (name.toList.drop marker.length)).replace "__" ".")
  else none

/-- The settings among the variables, all of them texts. -/
def members (env : Environment) : List (String × Tree) :=
  env.filterMap fun (name, value) =>
    (settingOf name).map (·, .scalar (some "the environment") (.text value))

end Environment

end Courier.Settings
