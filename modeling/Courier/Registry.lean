import Courier.Handler

/-!
# The registry of handlers

The registry holds, for each registered type name, how to read a payload of that type and the
handler that gets the message. A second registration under a name replaces the first, together
with its way of reading payloads.

## Main definitions

* `Binding`: a type name, and how to start the handler of a delivery.
* `Registry`: bindings by type name.
* `Registry.register`, `Registry.registerFn`, `Registry.find?`: the operations.
-/

namespace Courier

/-- A registered handler. Starting it reads the payload first. -/
structure Binding where
  typeName : String
  start : Context → Envelope → Except EnvelopeError Activity

/-- The binding of a handler of messages of type `M`. -/
def Binding.ofHandler {M : Type} [Message M] (h : Handler M) : Binding where
  typeName := Message.typeName M
  start ctx e := (e.message M).map (h ctx)

/-- The text that shows a binding to developers. -/
def Binding.describe (b : Binding) : String :=
  "HandlerBinding \x7b type_name: " ++ Text.quoted b.typeName ++ " \x7d"

/-- Bindings by type name. -/
structure Registry where
  bindings : Dictionary Binding := ∅

namespace Registry

instance : EmptyCollection Registry := ⟨{}⟩

/-- Adds a binding in place of any earlier one of its type name. -/
def add (r : Registry) (b : Binding) : Registry :=
  ⟨r.bindings.insert b.typeName b⟩

/-- Registers a handler of messages of type `M`. -/
def register {M : Type} [Message M] (r : Registry) (h : Handler M) : Registry :=
  r.add (.ofHandler h)

/-- Registers a function as the handler of messages of type `M`. -/
def registerFn {M : Type} [Message M] (r : Registry) (f : Context → M → Activity) : Registry :=
  r.register (M := M) f

/-- The binding of a type name. -/
def find? (r : Registry) (typeName : String) : Option Binding :=
  r.bindings.find? typeName

/-- Whether a type name is registered. -/
def contains (r : Registry) (typeName : String) : Bool :=
  (r.find? typeName).isSome

/-- The registered type names, in order. -/
def typeNames (r : Registry) : List String :=
  r.bindings.names

/-- The number of registered type names. -/
def size (r : Registry) : Nat :=
  r.bindings.size

/-- Whether nothing is registered. -/
def isEmpty (r : Registry) : Bool :=
  r.bindings.isEmpty

/-- The text that shows a registry to developers. -/
def describe (r : Registry) : String :=
  "HandlerRegistry \x7b types: " ++ Text.quotedList r.typeNames ++ " \x7d"

end Registry

end Courier
