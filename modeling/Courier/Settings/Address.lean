import Courier.Bytes

/-!
# Socket addresses

A socket address is the address of a host and the number of a port. The host is either four
numbers of one byte with points between them, or eight numbers of two bytes in hexadecimal with
colons between them, in brackets. A run of zeros in the second form may be left out once, its last
two numbers may be written in the first form, and the number of a network interface may follow.

When an address is written, numbers have no leading zeros, and the longest run of at least two
zeros is left out.

## Main definitions

* `Host`, `SocketAddress`: addresses.
* `SocketAddress.read?`, `SocketAddress.write`: their texts.
-/

namespace Courier

/-- The address of a host. -/
inductive Host where
  | v4 (a b c d : UInt8)
  | v6 (groups : Vector UInt16 8) (scope : UInt32)
  deriving DecidableEq

/-- A host and a port on it. -/
structure SocketAddress where
  host : Host
  port : UInt16
  deriving DecidableEq

namespace SocketAddress

/-- The value of a digit in the given base. -/
def digitValue? (base : Nat) (c : Char) : Option Nat :=
  let n :=
    if c.isDigit then c.toNat - '0'.toNat
    else if 'a' ≤ c ∧ c ≤ 'f' then c.toNat - 'a'.toNat + 10
    else if 'A' ≤ c ∧ c ≤ 'F' then c.toNat - 'A'.toNat + 10
    else base
  if n < base then some n else none

/-- The digits at the front of a text. -/
def digitsOf (base : Nat) (cs : List Char) : List Nat × List Char :=
  match cs with
  | [] => ([], [])
  | c :: rest =>
    match digitValue? base c with
    | some d =>
      let (ds, rest) := digitsOf base rest
      (d :: ds, rest)
    | none => ([], c :: rest)

/-- Reads a number below `bound`, with at most `width` digits if a width is given. -/
def number? (base bound : Nat) (width : Option Nat) (leadingZeros : Bool) (cs : List Char) :
    Option (Nat × List Char) :=
  let (ds, rest) := digitsOf base cs
  let n := ds.foldl (fun n d => n * base + d) 0
  if ds.isEmpty ∨ bound ≤ n ∨ width.any (· < ds.length) then none
  else if !leadingZeros ∧ ds.head? = some 0 ∧ 1 < ds.length then none
  else some (n, rest)

/-- Reads a certain character. -/
def mark? (c : Char) : List Char → Option (Unit × List Char)
  | d :: rest => if c = d then some ((), rest) else none
  | [] => none

/-- Reads four numbers of one byte. -/
def v4? (cs : List Char) : Option ((UInt8 × UInt8 × UInt8 × UInt8) × List Char) := do
  let (a, cs) ← number? 10 256 (some 3) false cs
  let ((), cs) ← mark? '.' cs
  let (b, cs) ← number? 10 256 (some 3) false cs
  let ((), cs) ← mark? '.' cs
  let (c, cs) ← number? 10 256 (some 3) false cs
  let ((), cs) ← mark? '.' cs
  let (d, cs) ← number? 10 256 (some 3) false cs
  return ((.ofNat a, .ofNat b, .ofNat c, .ofNat d), cs)

/-- Two numbers of one byte as one of two bytes. -/
def pair (a b : UInt8) : UInt16 :=
  .ofNat (a.toNat * 256 + b.toNat)

/-- Reads at most `room` numbers of two bytes, with a colon in front of all but the first. The
flag tells whether the last two stood in the form of four bytes. -/
def groupsOf : (room : Nat) → (first : Bool) → List Char → List UInt16 × Bool × List Char
  | 0, _, cs => ([], false, cs)
  | room + 1, first, cs =>
    match if first then some cs else (mark? ':' cs).map (·.2) with
    | none => ([], false, cs)
    | some inner =>
      match if room = 0 then none else v4? inner with
      | some ((a, b, c, d), rest) => ([pair a b, pair c d], true, rest)
      | none =>
        match number? 16 65536 (some 4) true inner with
        | some (g, rest) =>
          let (gs, mixed, rest) := groupsOf room false rest
          (.ofNat g :: gs, mixed, rest)
        | none => ([], false, cs)

/-- Eight numbers from those at the front and those at the back, with zeros between them. -/
def spread (front back : List UInt16) : Vector UInt16 8 :=
  .ofFn fun i =>
    if i.val < 8 - back.length then front.getD i.val 0 else back.getD (i.val - (8 - back.length)) 0

/-- Reads eight numbers of two bytes. -/
def v6? (cs : List Char) : Option (Vector UInt16 8 × List Char) :=
  match groupsOf 8 true cs with
  | (front, mixed, rest) =>
    if front.length = 8 then some (spread front [], rest)
    else if mixed then none
    else do
      let ((), rest) ← mark? ':' rest
      let ((), rest) ← mark? ':' rest
      let (back, _, rest) := groupsOf (7 - front.length) true rest
      return (spread front back, rest)

/-- Reads the number of a network interface, zero if there is none. -/
def scope (cs : List Char) : UInt32 × List Char :=
  match (do
    let ((), cs) ← mark? '%' cs
    number? 10 UInt32.size none true cs) with
  | some (n, rest) => (.ofNat n, rest)
  | none => (0, cs)

/-- Reads the address of a host. -/
def host? (cs : List Char) : Option (Host × List Char) :=
  match v4? cs with
  | some ((a, b, c, d), rest) => some (.v4 a b c d, rest)
  | none => do
    let ((), cs) ← mark? '[' cs
    let (groups, cs) ← v6? cs
    let (scope, cs) := scope cs
    let ((), cs) ← mark? ']' cs
    return (.v6 groups scope, cs)

/-- The address that a text describes. -/
def read? (s : String) : Option SocketAddress :=
  match (do
    let (host, cs) ← host? s.toList
    let ((), cs) ← mark? ':' cs
    let (port, cs) ← number? 10 65536 none true cs
    return (SocketAddress.mk host (.ofNat port), cs)) with
  | some (a, []) => some a
  | _ => none

/-- The number of zeros at the front. -/
def zerosOf (gs : List UInt16) : Nat :=
  (gs.takeWhile (· = 0)).length

/-- Where the longest run of zeros begins, the first of these, and how long it is. -/
def longestZeros : (start : Nat) → List UInt16 → Nat × Nat
  | _, [] => (0, 0)
  | start, g :: gs =>
    let here := zerosOf (g :: gs)
    let later := longestZeros (start + 1) gs
    if later.2 ≤ here then (start, here) else later

/-- Texts with a mark between them. -/
def joined (mark : String) (parts : List String) : String :=
  mark.intercalate parts

/-- Numbers in hexadecimal with colons between them. -/
def writeGroups (gs : List UInt16) : String :=
  joined ":" (gs.map fun g => String.ofList (Nat.toDigits 16 g.toNat))

/-- Four numbers of one byte with points between them. -/
def writeV4 (parts : List Nat) : String :=
  joined "." (parts.map toString)

/-- Eight numbers of two bytes. An address of the first form inside one of the second keeps its
form. -/
def writeV6 (groups : Vector UInt16 8) : String :=
  match groups.toList with
  | [0, 0, 0, 0, 0, 0xffff, g, h] =>
    "::ffff:" ++ writeV4 [g.toNat / 256, g.toNat % 256, h.toNat / 256, h.toNat % 256]
  | gs =>
    let (start, count) := longestZeros 0 gs
    if 1 < count then
      writeGroups (gs.take start) ++ "::" ++ writeGroups (gs.drop (start + count))
    else writeGroups gs

/-- The address of a host as it stands before a port. -/
def writeHost : Host → String
  | .v4 a b c d => writeV4 [a.toNat, b.toNat, c.toNat, d.toNat]
  | .v6 groups scope =>
    let interface := if scope = 0 then "" else s!"%{scope}"
    "[" ++ writeV6 groups ++ interface ++ "]"

/-- The text of an address. -/
def write (a : SocketAddress) : String :=
  s!"{writeHost a.host}:{a.port}"

end SocketAddress

end Courier
