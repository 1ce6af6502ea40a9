import Courier.Bytes

/-!
# Base64

The standard alphabet with mandatory padding. Reading is strict: the padding is canonical, and
the bits of the last symbol that belong to no byte are zero. A fault names the first offending
position.

## Main definitions

* `Base64.encode`, `Base64.decode`: writing and reading.
* `Base64.Fault`: why a text is refused.
-/

namespace Courier.Base64

/-- Why a text is not the Base64 form of a byte string. -/
inductive Fault where
  /-- The byte at `offset` is no symbol, or is padding in a place where none may stand. -/
  | invalidSymbol (byte : UInt8) (offset : Nat)
  /-- The text ends after a single symbol of a group. -/
  | invalidLength (length : Nat)
  /-- The last group is not filled up with padding. -/
  | invalidPadding
  /-- The last symbol carries bits that belong to no byte. -/
  | invalidLastSymbol (byte : UInt8) (offset : Nat)
  deriving DecidableEq, Repr

/-- The sentence shown for a fault. -/
def Fault.message : Fault → String
  | invalidSymbol byte offset => s!"Invalid symbol {byte}, offset {offset}."
  | invalidLength length => s!"Invalid input length: {length}"
  | invalidPadding => "Invalid padding"
  | invalidLastSymbol byte offset => s!"Invalid last symbol {byte}, offset {offset}."

/-- The padding byte. -/
def pad : UInt8 := 0x3d

/-- The symbol of a six-bit value. -/
def symbol (n : Nat) : UInt8 :=
  if n < 26 then UInt8.ofNat (n + 65)
  else if n < 52 then UInt8.ofNat (n + 71)
  else if n < 62 then UInt8.ofNat (n - 4)
  else if n = 62 then 0x2b
  else 0x2f

/-- The six-bit value of a symbol. -/
def value? (b : UInt8) : Option Nat :=
  let n := b.toNat
  if 65 ≤ n ∧ n ≤ 90 then some (n - 65)
  else if 97 ≤ n ∧ n ≤ 122 then some (n - 71)
  else if 48 ≤ n ∧ n ≤ 57 then some (n + 4)
  else if n = 43 then some 62
  else if n = 47 then some 63
  else none

/-- Writes groups of three bytes behind the symbols in `acc`, which is in reverse. -/
def encodeOnto (acc : Bytes) : Bytes → Bytes
  | a :: b :: c :: rest =>
    let n := a.toNat * 65536 + b.toNat * 256 + c.toNat
    encodeOnto (symbol (n % 64) :: symbol (n / 64 % 64) :: symbol (n / 4096 % 64) ::
      symbol (n / 262144) :: acc) rest
  | [a, b] =>
    let n := a.toNat * 256 + b.toNat
    (pad :: symbol (n * 4 % 64) :: symbol (n / 16 % 64) :: symbol (n / 1024) :: acc).reverse
  | [a] =>
    let n := a.toNat
    (pad :: pad :: symbol (n * 16 % 64) :: symbol (n / 4) :: acc).reverse
  | [] => acc.reverse

/-- The Base64 form of a byte string. -/
def encode (b : Bytes) : Bytes :=
  encodeOnto [] b

/-- The Base64 form of a byte string, as a text. -/
def text (b : Bytes) : String :=
  (Bytes.text? (encode b)).getD ""

/-- The value of the symbol that stands at `offset`. -/
def valueAt (offset : Nat) (b : UInt8) : Except Fault Nat :=
  match value? b with
  | some n => .ok n
  | none => .error (.invalidSymbol b offset)

/-- The symbols of the last group, which starts at `offset`: their values, and the number of
padding bytes behind them. Symbols do not follow padding, and padding is neither the first nor
the second of its group. -/
def lastGroup (offset : Nat) (values : List Nat) (padding : Nat) :
    Bytes → Except Fault (List Nat × Nat)
  | [] => .ok (values, padding)
  | b :: rest =>
    if b = pad then
      if values.length + padding < 2 then
        .error (.invalidSymbol b (offset + values.length + padding))
      else lastGroup offset values (padding + 1) rest
    else if padding > 0 then .error (.invalidSymbol pad (offset + values.length))
    else do
      let n ← valueAt (offset + values.length) b
      lastGroup offset (values ++ [n]) padding rest

/-- The bytes of the last group, which starts at `offset` and ends with the symbol `last`. -/
def lastBytes (offset : Nat) (last : UInt8) : List Nat → Except Fault Bytes
  | [x, y, z, w] =>
    let n := x * 262144 + y * 4096 + z * 64 + w
    .ok [UInt8.ofNat (n / 65536), UInt8.ofNat (n / 256), UInt8.ofNat n]
  | [x, y, z] =>
    let n := x * 4096 + y * 64 + z
    if n % 4 = 0 then .ok [UInt8.ofNat (n / 1024), UInt8.ofNat (n / 4)]
    else .error (.invalidLastSymbol last (offset + 2))
  | [x, y] =>
    let n := x * 64 + y
    if n % 16 = 0 then .ok [UInt8.ofNat (n / 16)]
    else .error (.invalidLastSymbol last (offset + 1))
  | values => .error (.invalidLength (offset + values.length))

/-- Reads the last group, which may be empty only when nothing stands before it. -/
def decodeLast (offset : Nat) (group : Bytes) : Except Fault Bytes := do
  if offset = 0 ∧ group = [] then return []
  let (values, padding) ← lastGroup offset [] 0 group
  if values.length < 2 then throw (.invalidLength (offset + values.length))
  if (values.length + padding) % 4 ≠ 0 then throw .invalidPadding
  lastBytes offset ((group.take values.length).getLast?.getD pad) values

/-- Reads the groups from `offset` on, behind the bytes in `acc`, which is in reverse. A complete
group is the last one when nothing follows it. -/
def decodeFrom (offset : Nat) (acc : Bytes) : Bytes → Except Fault Bytes
  | a :: b :: c :: d :: e :: rest =>
    match valueAt offset a, valueAt (offset + 1) b, valueAt (offset + 2) c,
        valueAt (offset + 3) d with
    | .ok x, .ok y, .ok z, .ok w =>
      let n := x * 262144 + y * 4096 + z * 64 + w
      decodeFrom (offset + 4)
        (UInt8.ofNat n :: UInt8.ofNat (n / 256) :: UInt8.ofNat (n / 65536) :: acc) (e :: rest)
    | .error f, _, _, _ => .error f
    | _, .error f, _, _ => .error f
    | _, _, .error f, _ => .error f
    | _, _, _, .error f => .error f
  | group => (decodeLast offset group).map (acc.reverse ++ ·)

/-- A byte behind the last complete group that is no symbol is reported before all else. -/
def strayByte? (s : Bytes) : Option Fault :=
  match s.getLast? with
  | some b =>
    if s.length % 4 = 1 ∧ b ≠ pad ∧ (value? b).isNone then
      some (.invalidSymbol b (s.length - 1))
    else none
  | none => none

/-- The byte string whose Base64 form is `s`. -/
def decode (s : Bytes) : Except Fault Bytes :=
  match strayByte? s with
  | some f => .error f
  | none => decodeFrom 0 [] s

end Courier.Base64
