import Courier.Json.Decoder

/-!
# Records and variants

A record is an object with named fields. Members that are no fields are passed over, and a field
may be given once. A record may also be given as an array of its fields in their order. A
variant is a name out of a fixed set; it may also be given as an object with that name as its only
key and the value `null`.

## Main definitions

* `Json.Field`, `Json.Record`: the description of a record, and `Json.Record.decoder`.
* `Json.Decoder.variant`: the decoder of a variant.
-/

namespace Courier.Json

/-- What a field that is not given means: it may be absent nowhere, from objects only, or from
objects and from the end of arrays. -/
inductive Absence where
  | refused
  | fromObjects
  | anywhere
  deriving DecidableEq

/-- A field of a record that is built up in a value of type `ρ`. -/
structure Field (ρ : Type) where
  name : String
  absence : Absence
  /-- Reads the field and gives the change that it makes. -/
  read : Decoder (ρ → ρ)

/-- A record: its name in messages, its fields in order, and its value before any field is
read. -/
structure Record (ρ : Type) where
  name : String
  fields : List (Field ρ)
  initial : ρ

namespace Field

variable {ρ α : Type}

/-- A field that has to be given. -/
def required (name : String) (d : Decoder α) (set : α → ρ → ρ) : Field ρ :=
  ⟨name, .refused, d.map set⟩

/-- A field that may be absent from an object. -/
def optional (name : String) (d : Decoder α) (set : Option α → ρ → ρ) : Field ρ :=
  ⟨name, .fromObjects, d.option.map set⟩

/-- A field that keeps its initial value when it is not given. -/
def defaulted (name : String) (d : Decoder α) (set : α → ρ → ρ) : Field ρ :=
  ⟨name, .anywhere, d.map set⟩

end Field

namespace Record

variable {ρ : Type}

/-- The words for an array of the record's fields. -/
def expected (r : Record ρ) : String :=
  let n := r.fields.length
  s!"struct {r.name} with {n} " ++ if n = 1 then "element" else "elements"

/-- The first field that has to be given and is not among the given ones. -/
def missing? (fields : List (Field ρ)) (given : List String) : Option (Field ρ) :=
  fields.find? fun f => f.absence == .refused && !given.contains f.name

/-- Reads the member with key `key`, from its colon on. -/
def readMember (r : Record ρ) (depth : Nat) (given : List String) (key : String) (value : ρ)
    (s : Bytes) : Except Fault (List String × ρ × Bytes) :=
  match r.fields.find? fun f => f.name == key with
  | none => do
    let rest ← colon s
    let rest ← skipValue rest
    return (given, value, rest)
  | some f => do
    if given.contains key then throw (.duplicateField key)
    let rest ← colon s
    let (change, rest) ← f.read depth rest
    return (key :: given, change value, rest)

/-- Reads the members of an object whose fields `given` have been read. -/
def membersFrom (r : Record ρ) (depth : Nat) :
    (steps : Nat) → (first : Bool) → (given : List String) → ρ → Bytes → Except Fault (ρ × Bytes)
  | 0, _, _, _, _ => .error .ended
  | steps + 1, first, given, value, s =>
    match nextKey first s with
    | .error f => .error f
    | .ok (.done rest) =>
      match missing? r.fields given with
      | some f => .error (.missingField f.name)
      | none => .ok (value, rest)
    | .ok (.more rest) =>
      match readString rest with
      | .error f => .error f
      | .ok (key, rest) =>
        match r.readMember depth given key value rest with
        | .error f => .error f
        | .ok (given, value, rest) => r.membersFrom depth steps false given value rest

/-- Reads the fields of an array, the first of which has number `index`. -/
def itemsFrom (r : Record ρ) (depth : Nat) :
    List (Field ρ) → (index : Nat) → (first : Bool) → ρ → Bytes → Except Fault (ρ × Bytes)
  | [], _, _, value, s => (closeArray s).map (value, ·)
  | f :: fs, index, first, value, s =>
    match nextItem first s with
    | .error e => .error e
    | .ok (.done _) =>
      if f.absence = .anywhere then r.itemsFrom depth fs (index + 1) first value s
      else .error (.wrongLength index r.expected)
    | .ok (.more rest) =>
      match f.read depth rest with
      | .error e => .error e
      | .ok (change, rest) => r.itemsFrom depth fs (index + 1) false (change value) rest

/-- Reads a record. -/
def decoder (r : Record ρ) : Decoder ρ :=
  fun depth s =>
    match skipSpace s, depth with
    | 0x7b :: _, 0 | 0x5b :: _, 0 => .error .malformed
    | 0x7b :: rest, depth + 1 => r.membersFrom depth (rest.length + 1) true [] r.initial rest
    | 0x5b :: rest, depth + 1 => r.itemsFrom depth r.fields 0 true r.initial rest
    | s, _ => mismatch s!"struct {r.name}" s

end Record

namespace Decoder

variable {α : Type}

/-- The value of a variant's name. -/
def variantOf (variants : List (String × α)) (name : String) : Except Fault α :=
  match variants.find? fun v => v.1 == name with
  | some v => .ok v.2
  | none => .error (.unknownVariant name (variants.map (·.1)))

/-- Reads the name of a variant. -/
def variant (variants : List (String × α)) : Decoder α :=
  fun depth s =>
    match skipSpace s, depth with
    | [], _ => .error .ended
    | 0x22 :: rest, _ => do
      let (name, rest) ← readString rest
      return (← variantOf variants name, rest)
    | 0x7b :: _, 0 => .error .malformed
    | 0x7b :: rest, depth + 1 => do
      let (name, rest) ← stringAs "variant identifier" depth rest
      let value ← variantOf variants name
      let rest ← colon rest
      let ((), rest) ← unit depth rest
      match skipSpace rest with
      | [] => throw .ended
      | 0x7d :: rest => return (value, rest)
      | _ => throw .malformed
    | _, _ => .error .malformed

end Decoder

end Courier.Json
