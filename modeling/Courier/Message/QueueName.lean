import Courier.Error
import Courier.Json.Record

/-!
# Names of queues

A queue name has 1 to 80 bytes: a word over the ASCII letters and digits, the hyphen and the
underscore. The name of a queue that keeps its messages in order ends in `.fifo` behind the word.

## Main definitions

* `QueueName`: a valid name, and `QueueName.ofText`, its only source.
* `QueueName.parse`, `QueueName.convert`, `QueueName.decoder`: the ways in which names come in.
* `QueueName.isFifo`: whether the queue keeps its messages in order.
* `Locator`, `Identity`: a name to be resolved, and what it resolves to.
-/

namespace Courier

/-- The ending of the names of queues that keep their messages in order. -/
def fifoEnding : List Char :=
  ['.', 'f', 'i', 'f', 'o']

/-- Whether a character may stand in the word of a queue name. -/
def isNameChar (c : Char) : Bool :=
  c.isAlphanum || c = '-' || c = '_'

/-- A name without the ending `.fifo`. -/
def nameWord (cs : List Char) : List Char :=
  if fifoEnding.isSuffixOf cs then cs.take (cs.length - fifoEnding.length) else cs

/-- Whether the name has a permitted length. -/
def isNameLength (s : String) : Bool :=
  1 ≤ s.utf8ByteSize ∧ s.utf8ByteSize ≤ 80

/-- Whether the name is a word, or a word with the ending `.fifo`. -/
def isNameForm (cs : List Char) : Bool :=
  let word := nameWord cs
  !word.isEmpty && word.all isNameChar

/-- The name of a queue. -/
structure QueueName where
  text : String
  valid : isNameLength text && isNameForm text.toList
  deriving DecidableEq

namespace QueueName

/-- The queue name with the given text. -/
def ofText (s : String) : Except FieldError QueueName :=
  if hl : isNameLength s then
    if hf : isNameForm s.toList then .ok ⟨s, by simp [hl, hf]⟩
    else .error (.invalidFormat "queue_name"
      "only ASCII alphanumeric, hyphens, underscores and a '.fifo' suffix allowed")
  else .error (.outOfRange "queue_name" "must be 1-80 characters")

/-- The queue name that somebody has written, on a command line for instance. -/
def parse (s : String) : Except FieldError QueueName :=
  ofText s

/-- A text that is at hand as a queue name. -/
def convert (s : String) : Except FieldError QueueName :=
  ofText s

/-- A queue name is shown as its text. -/
instance : ToString QueueName := ⟨text⟩

/-- Whether the queue keeps its messages in order. -/
def isFifo (n : QueueName) : Bool :=
  fifoEnding.isSuffixOf n.text.toList

/-- Reads a queue name from a JSON text. -/
def decoder : Json.Decoder QueueName :=
  Json.Decoder.string.check fun s => (ofText s).mapError (·.message)

/-- The JSON value of a queue name. -/
def toJson (n : QueueName) : Json :=
  .string n.text

end QueueName

/-- What is needed to resolve a queue: its name, and its owner when that is another account. -/
structure Locator where
  name : QueueName
  owner : Option String := none
  deriving DecidableEq

/-- The text of a locator, with the owner in front. -/
def Locator.text (l : Locator) : String :=
  match l.owner with
  | some owner => s!"{owner}/{l.name.text}"
  | none => l.name.text

/-- A resolved queue: its name, and the address under which the backend knows it. -/
structure Identity where
  name : QueueName
  url : String
  deriving DecidableEq

/-- A resolved queue as it is shown to developers. -/
def Identity.describe (q : Identity) : String :=
  "QueueIdentity \x7b name: QueueName(" ++ Text.quoted q.name.text ++ "), url: " ++
    Text.quoted q.url ++ " \x7d"

end Courier
