import Courier.Message.Basic

/-!
# Fresh identifiers

Backends and publishers need identifiers that nobody has used before. A `Mint` gives them out one
after the other; each is a text of the usual form of universally unique identifiers.

## Main definitions

* `Mint.text`: the identifier with a given number.
* `Mint.draw`: the next identifier, and the mint after it.
-/

namespace Courier

/-- A source of identifiers: the number of the next one. -/
structure Mint where
  next : Nat := 0
  deriving DecidableEq, Repr

namespace Mint

/-- What all identifiers have in common. -/
def stem : String :=
  "6d1f0b58-93c4-4e27-8a5d-"

/-- The hexadecimal digits of a number, at least as many as the given width. -/
def digits (width n : Nat) : List Char :=
  (Nat.toDigits 16 n).leftpad width '0'

/-- The identifier with the given number. -/
def text (n : Nat) : String :=
  stem ++ String.ofList (digits 12 n)

theorem text_ne_empty (n : Nat) : text n ≠ "" := by
  intro h
  have h' := congrArg String.toList h
  simp [text, stem] at h'

/-- The next identifier, and the mint without it. -/
def draw (m : Mint) : String × Mint :=
  (text m.next, ⟨m.next + 1⟩)

/-- The next identifier as that of a message. -/
def drawMessageId (m : Mint) : MessageId × Mint :=
  (⟨text m.next, text_ne_empty m.next⟩, ⟨m.next + 1⟩)

end Mint

end Courier
