import Courier.Sqs.Message

/-!
# Replies of the service

The service replies to a call with an output or with an error that has a code. If neither comes,
or the reply cannot be read, then nobody knows what became of the call.

In outputs a member that is `null` is as good as absent. A member of a wrong type makes the whole
reply unreadable.

## Main definitions

* `Sqs.Reply`, `Sqs.failureOf`: replies, and the error of a queue operation that a code means.
* `Sqs.textAt?`, `Sqs.batchOf?`: reading outputs.
-/

namespace Courier.Sqs

/-- What comes back from the service. The transport gives its own account of failures. -/
inductive Reply where
  | output (v : Json)
  | failure (code message : Option String) (account : String)
  | unreachable (account : String)

/-- The name of an error in a code, which may have a namespace before `#` and a place after `:`. -/
def errorName (code : String) : String :=
  let cs := code.toList.takeWhile (· ≠ ':')
  String.ofList <| match cs.dropWhile (· ≠ '#') with
    | [] => cs
    | _ :: rest => rest

/-- The codes for a queue that does not exist. -/
def unknownQueueCodes : List String :=
  ["AWS.SimpleQueueService.NonExistentQueue", "QueueDoesNotExist"]

/-- The codes for a receipt that is not valid. -/
def staleReceiptCodes : List String :=
  ["ReceiptHandleIsInvalid"]

/-- The codes for credentials and signatures that are not accepted. -/
def refusedAccessCodes : List String :=
  ["InvalidClientTokenId", "SignatureDoesNotMatch", "AccessDenied", "AccessDeniedException",
    "ExpiredToken", "UnrecognizedClientException"]

/-- The error that a code means. `subject` is the queue or the receipt of the call. -/
def failureOf (subject code reason : String) : QueueError :=
  if unknownQueueCodes.contains code then .queueNotFound subject
  else if staleReceiptCodes.contains code then .messageNotFound subject
  else if refusedAccessCodes.contains code then .authenticationFailed reason
  else .provider serviceName code reason

/-- The account of a reply that cannot be read. -/
def unreadable : String :=
  "unreadable response"

/-- The output in a reply, or the error that it means. -/
def Reply.output? (subject : String) : Reply → Except QueueError Json
  | output v => .ok v
  | failure none _ account => .error (.connectionFailed account)
  | failure (some code) message account =>
    .error (failureOf subject (errorName code) (message.getD account))
  | unreachable account => .error (.connectionFailed account)

/-- The members of an object without those that are `null`. -/
def members? : Json → Option (List (String × Json))
  | .object ms => some (ms.filter fun m => match m.2 with
    | .null => false
    | _ => true)
  | _ => none

/-- What `read` makes of a member, if it is there. -/
def memberAt? {α : Type} (read : Json → Option α) (name : String) (v : Json) :
    Option (Option α) := do
  match (← members? v).lookup name with
  | none => return none
  | some m => return some (← read m)

/-- A text. -/
def text? : Json → Option String
  | .string s => some s
  | _ => none

/-- A byte string in Base64. -/
def bytes? (v : Json) : Option Bytes := do
  (Base64.decode (.ofText (← text? v))).toOption

/-- A text member. -/
def textAt? (name : String) (v : Json) : Option (Option String) :=
  memberAt? text? name v

/-- An object whose members are all read alike. -/
def dictionary? {α : Type} (read : Json → Option α) (v : Json) : Option (Dictionary α) := do
  return .ofList (← (← members? v).mapM fun (name, m) => (read m).map (name, ·))

/-- An attribute. One that gives no type has the empty name for it. -/
def wireAttribute? (v : Json) : Option WireAttribute := do
  return ⟨(← textAt? "DataType" v).getD "", ← textAt? "StringValue" v,
    ← memberAt? bytes? "BinaryValue" v⟩

/-- A received message. -/
def message? (v : Json) : Option Message := do
  return {
    id := ← textAt? "MessageId" v
    receipt := ← textAt? "ReceiptHandle" v
    body := ← textAt? "Body" v
    attributes := (← memberAt? (dictionary? wireAttribute?) "MessageAttributes" v).getD ∅
    system := (← memberAt? (dictionary? text?) "Attributes" v).getD ∅ }

/-- An array of messages. -/
def messages? : Json → Option (List Message)
  | .array xs => (xs.filter fun x => match x with
    | .null => false
    | _ => true).mapM message?
  | _ => none

/-- The batch in the output of a receive call. -/
def batchOf? (v : Json) : Option (List Message) := do
  return (← memberAt? messages? "Messages" v).getD []

end Courier.Sqs
