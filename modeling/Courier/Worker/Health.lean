import Courier.Consumer
import Courier.Publisher

/-!
# The health endpoint

The endpoint answers whether the queues of consumer and publisher can still be looked up. The
publisher's queue is looked up only if that of the consumer was found. There is one path, which
can only be read.

## Main definitions

* `Health.probe`: the lookups.
* `Health.Response`, `Health.respond`: what a request is answered.
-/

namespace Courier.Health

variable {σ : Type}

/-- The part of the program that speaks in the log. -/
def logTarget : String :=
  "lifecycle_worker::health"

/-- Looks up the queue of the consumer, and then that of the publisher. -/
def probe (k : Backend σ) (c : Consumer) (p : Publisher) :
    StateM σ (Except QueueError Unit) := do
  match ← c.ping k with
  | .ok () => p.ping k
  | .error e => return .error e

/-- The answer to a request. -/
structure Response where
  status : Nat
  contentType : Option String := none
  /-- The methods that the path knows, when that of the request is none of them. -/
  allow : Option String := none
  body : String := ""
  deriving DecidableEq, Repr

/-- The path of the endpoint. -/
def path : List Char :=
  "/health".toList

/-- The path in the target of a request, which ends where a query or a fragment begins. -/
def pathOf (target : String) : List Char :=
  target.toList.takeWhile fun c => c ≠ '?' ∧ c ≠ '#'

/-- What a probe found, as a JSON value. -/
def summary (found : Except QueueError Unit) (pending : Nat) : Json :=
  .object <| match found with
    | .ok () => [("status", .string "healthy"), ("pending_acks", .nat pending)]
    | .error e =>
      [("status", .string "unhealthy"), ("error", .string e.message),
        ("pending_acks", .nat pending)]

/-- The response that tells what a probe found. -/
def report (found : Except QueueError Unit) (pending : Nat) : Response where
  status := if found matches .ok _ then 200 else 503
  contentType := some "application/json"
  body := (summary found pending).text

/-- The entry about a probe that failed. -/
def failureEntry (e : QueueError) : Log.Entry :=
  ⟨.warn, logTarget, "Health check failed", [("error", .text e.message)]⟩

/-- Answers a request. `pending` is the number of pending acknowledgements. -/
def respond (k : Backend σ) (c : Consumer) (p : Publisher) (pending : Nat)
    (method target : String) : StateM σ (Response × List Log.Entry) :=
  if pathOf target ≠ path then pure ({ status := 404 }, [])
  else if method = "GET" ∨ method = "HEAD" then do
    let found ← probe k c p
    let response := report found pending
    return (if method = "HEAD" then { response with body := "" } else response,
      match found with
      | .ok () => []
      | .error e => [failureEntry e])
  else pure ({ status := 405, allow := some "GET,HEAD" }, [])

end Courier.Health
