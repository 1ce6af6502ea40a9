import Courier.Proofs.Envelope
import Courier.Proofs.Envelope.Frames

/-!
# Which deliveries are envelopes

A delivery is an envelope when it meets three conditions: its attribute `body` is binary, its
attribute `type` is a text that is not empty or else the payload names a type, and its attribute
`headers` is missing or holds headers in binary form. The conditions are looked at in this order,
and the first one that is not met gives the error. Both outcomes are described here by the
attributes alone, and every delivery has one of them.

Nothing else of a delivery matters, neither its body nor other attributes; and where the attribute
names the type, the payload is passed on without a look into it.

## Main definitions

* `Received.Named`, `Received.Headed`: the type that a delivery names, and the headers that it has.
* `Received.Conforms`: the envelope of a delivery that meets the conditions.
* `Received.Violates`: the first condition that a delivery does not meet, as an error.

## Main results

* `Received.conforms_or_violates`: every delivery meets the conditions or violates one first.
* `Envelope.accepts_wire_format`: deliveries are read as envelopes just when they meet the
  conditions, and what the outcome depends on.
-/

namespace Courier

namespace Received

/-! ### The conditions -/

/-- The type that a delivery with a payload names: in an attribute of its own, or in the payload
when there is no such text. -/
inductive Named (attributes : Dictionary Attribute) (payload : Bytes) : String → Prop
  | own {name} (text : attributes.find? "type" = some (.string name)) (filled : name ≠ "") :
      Named attributes payload name
  | frame {name} (nameless : Attribute.Nameless (attributes.find? "type"))
      (tagged : frameTag.decoder.run payload = .ok name) : Named attributes payload name

/-- The headers in an attribute, if it is there at all. -/
inductive Headed : Option Attribute → Headers → Prop
  | absent : Headed none ∅
  | binary {b h} (read : (Json.Decoder.dictionary Header.decoder).run b = .ok h) :
      Headed (some (.binary b)) h

/-- The envelope of a delivery that meets all conditions. -/
structure Conforms (m : Received) (e : Envelope) : Prop where
  payload : m.attributes.find? "body" = some (.binary e.payload)
  typeName : Named m.attributes e.payload e.typeName
  headers : Headed (m.attributes.find? "headers") e.headers
  id : e.id = m.id
  receipt : e.receipt = m.receipt
  receiveCount : e.receiveCount = m.receiveCount

/-- The first condition that a delivery does not meet, and the error that this is. -/
inductive Violates (m : Received) : EnvelopeError → Prop
  | missing (absent : m.attributes.find? "body" = none) : Violates m (.missingPayload "body")
  | mistyped {a} (there : m.attributes.find? "body" = some a) (other : ∀ b, a ≠ .binary b) :
      Violates m (.unexpectedDataType "body" "Binary" a.dataType)
  | unnamed {payload f} (body : m.attributes.find? "body" = some (.binary payload))
      (nameless : Attribute.Nameless (m.attributes.find? "type"))
      (untagged : frameTag.decoder.run payload = .error f) : Violates m (.missingTypeTag f)
  | misheaded {payload name a} (body : m.attributes.find? "body" = some (.binary payload))
      (named : Named m.attributes payload name) (there : m.attributes.find? "headers" = some a)
      (other : ∀ b, a ≠ .binary b) :
      Violates m (.unexpectedDataType "headers" "Binary" a.dataType)
  | unheaded {payload name b f} (body : m.attributes.find? "body" = some (.binary payload))
      (named : Named m.attributes payload name)
      (there : m.attributes.find? "headers" = some (.binary b))
      (unread : (Json.Decoder.dictionary Header.decoder).run b = .error f) :
      Violates m (.invalidHeaders f)

variable {m : Received} {attributes : Dictionary Attribute} {payload : Bytes} {name : String}

/-! ### Every delivery has an outcome -/

theorem nameless_or_own (a : Option Attribute) :
    Attribute.Nameless a ∨ ∃ name, a = some (.string name) ∧ name ≠ "" := by
  cases a with
  | none => exact .inl .absent
  | some a =>
    cases a with
    | number s => exact .inl (.number s)
    | binary b => exact .inl (.binary b)
    | string s =>
      by_cases empty : s = ""
      · exact .inl (empty ▸ .empty)
      · exact .inr ⟨s, rfl, empty⟩

theorem named_or_unnamed (attributes : Dictionary Attribute) (payload : Bytes) :
    (∃ name, Named attributes payload name) ∨ Attribute.Nameless (attributes.find? "type") ∧
      ∃ f, frameTag.decoder.run payload = .error f := by
  rcases nameless_or_own (attributes.find? "type") with nameless | ⟨name, own, filled⟩
  · cases tagged : frameTag.decoder.run payload with
    | ok name => exact .inl ⟨name, .frame nameless tagged⟩
    | error f => exact .inr ⟨nameless, f, rfl⟩
  · exact .inl ⟨name, .own own filled⟩

/-- Every delivery meets the conditions or violates one first. -/
theorem conforms_or_violates (m : Received) :
    (∃ e, m.Conforms e) ∨ ∃ f, m.Violates f := by
  cases body : m.attributes.find? "body" with
  | none => exact .inr ⟨_, .missing body⟩
  | some a =>
    by_cases binary : ∃ payload, a = .binary payload
    · obtain ⟨payload, rfl⟩ := binary
      rcases named_or_unnamed m.attributes payload with ⟨name, named⟩ | ⟨nameless, f, untagged⟩
      · cases headers : m.attributes.find? "headers" with
        | none =>
          exact .inl ⟨⟨m.id, m.receipt, name, ∅, payload, m.receiveCount⟩, body, named,
            headers ▸ .absent, rfl, rfl, rfl⟩
        | some a =>
          by_cases binary : ∃ b, a = .binary b
          · obtain ⟨b, rfl⟩ := binary
            cases read : (Json.Decoder.dictionary Header.decoder).run b with
            | ok h =>
              exact .inl ⟨⟨m.id, m.receipt, name, h, payload, m.receiveCount⟩, body, named,
                headers ▸ .binary read, rfl, rfl, rfl⟩
            | error f => exact .inr ⟨_, .unheaded body named headers read⟩
          · exact .inr ⟨_, .misheaded body named headers fun b same => binary ⟨b, same⟩⟩
      · exact .inr ⟨_, .unnamed body nameless untagged⟩
    · exact .inr ⟨_, .mistyped body fun b same => binary ⟨b, same⟩⟩

/-! ### The outcomes -/

theorem Named.typeNameOf (named : Named attributes payload name) :
    typeNameOf attributes payload = .ok name := by
  cases named with
  | own text filled =>
    have text : attributes.find? typeKey = some (.string name) := text
    unfold Courier.typeNameOf
    rw [text]
    exact if_pos filled
  | frame nameless tagged => exact typeNameOf_nameless nameless tagged

theorem Headed.ofAttribute {a : Option Attribute} {h : Headers} (headed : Headed a h) :
    Headers.ofAttribute a = .ok h := by
  cases headed with
  | absent => rfl
  | binary read => simp only [Headers.ofAttribute, read]

theorem Conforms.ofReceived {e : Envelope} (conforms : m.Conforms e) :
    Envelope.ofReceived m = .ok e := by
  obtain ⟨id, receipt, body, attributes, count⟩ := m
  obtain ⟨id', receipt', name, headers, payload, count'⟩ := e
  obtain ⟨found, named, headed, rfl, rfl, rfl⟩ := conforms
  exact Envelope.ofReceived_of_find? found named.typeNameOf headed.ofAttribute id' receipt' body
    count'

theorem typeNameOf_untagged {f : Json.Fault}
    (nameless : Attribute.Nameless (attributes.find? "type"))
    (untagged : frameTag.decoder.run payload = .error f) :
    typeNameOf attributes payload = .error (.missingTypeTag f) := by
  have failed : typeNameOf.fromPayload payload = .error (.missingTypeTag f) := by
    rw [typeNameOf.fromPayload, untagged]
    rfl
  have nameless : Attribute.Nameless (attributes.find? typeKey) := nameless
  unfold typeNameOf
  generalize attributes.find? typeKey = a at nameless
  cases nameless <;> exact failed

/-- What comes of the three steps in which a delivery is read. -/
theorem ofReceived_eq (m : Received) : Envelope.ofReceived m =
    (payloadOf m.attributes).bind fun payload => (typeNameOf m.attributes payload).bind fun name =>
      (Headers.ofAttribute (m.attributes.find? headersKey)).map fun h =>
        ⟨m.id, m.receipt, name, h, payload, m.receiveCount⟩ := by
  simp only [Envelope.ofReceived, bind, Except.bind]
  rfl

theorem Violates.ofReceived {f : EnvelopeError} (violates : m.Violates f) :
    Envelope.ofReceived m = .error f := by
  have binary {b : Bytes} (body : m.attributes.find? "body" = some (.binary b)) :
      payloadOf m.attributes = .ok b := by
    have body : m.attributes.find? payloadKey = some (.binary b) := body
    rw [payloadOf, body]
  rw [ofReceived_eq]
  cases violates with
  | missing absent =>
    have absent : m.attributes.find? payloadKey = none := absent
    rw [payloadOf, absent]
    rfl
  | @mistyped a there other =>
    have there : m.attributes.find? payloadKey = some a := there
    rw [payloadOf, there]
    cases a with
    | binary b => exact absurd rfl (other b)
    | string | number => rfl
  | unnamed body nameless untagged =>
    rw [binary body, Except.bind, typeNameOf_untagged nameless untagged]
    rfl
  | @misheaded payload name a body named there other =>
    have there : m.attributes.find? headersKey = some a := there
    rw [binary body, Except.bind, named.typeNameOf, there]
    cases a with
    | binary b => exact absurd rfl (other b)
    | string | number => rfl
  | unheaded body named there unread =>
    have there : m.attributes.find? headersKey = some (.binary _) := there
    rw [binary body, Except.bind, named.typeNameOf, there]
    simp only [Headers.ofAttribute, unread]
    rfl

theorem ofReceived_eq_ok_iff {e : Envelope} : Envelope.ofReceived m = .ok e ↔ m.Conforms e := by
  refine ⟨fun accepted => ?_, Conforms.ofReceived⟩
  rcases m.conforms_or_violates with ⟨e', conforms⟩ | ⟨f, violates⟩
  · cases accepted.symm.trans conforms.ofReceived
    exact conforms
  · cases accepted.symm.trans violates.ofReceived

theorem ofReceived_eq_error_iff {f : EnvelopeError} :
    Envelope.ofReceived m = .error f ↔ m.Violates f := by
  refine ⟨fun refused => ?_, Violates.ofReceived⟩
  rcases m.conforms_or_violates with ⟨e, conforms⟩ | ⟨f', violates⟩
  · cases refused.symm.trans conforms.ofReceived
  · cases refused.symm.trans violates.ofReceived
    exact violates

/-! ### What the outcome depends on -/

/-- The three attributes, the identifier, the receipt and the receive count decide everything. -/
theorem ofReceived_congr {m' : Received}
    (body : m'.attributes.find? "body" = m.attributes.find? "body")
    (type : m'.attributes.find? "type" = m.attributes.find? "type")
    (headers : m'.attributes.find? "headers" = m.attributes.find? "headers")
    (id : m'.id = m.id) (receipt : m'.receipt = m.receipt)
    (count : m'.receiveCount = m.receiveCount) :
    Envelope.ofReceived m' = Envelope.ofReceived m := by
  have payloads : payloadOf m'.attributes = payloadOf m.attributes := by
    unfold payloadOf
    rw [show m'.attributes.find? payloadKey = m.attributes.find? payloadKey from body]
  have names (payload : Bytes) :
      typeNameOf m'.attributes payload = typeNameOf m.attributes payload := by
    unfold typeNameOf
    rw [show m'.attributes.find? typeKey = m.attributes.find? typeKey from type]
  have headers : m'.attributes.find? headersKey = m.attributes.find? headersKey := headers
  rw [ofReceived_eq, ofReceived_eq, payloads, headers, id, receipt, count]
  simp only [names]

/-- Where an attribute names the type, another payload makes no difference but that it is passed
on. -/
theorem ofReceived_insert_body {tag : String}
    (type : m.attributes.find? "type" = some (.string tag)) (filled : tag ≠ "")
    (body : m.attributes.find? "body" = some (.binary payload)) (payload' : Bytes) :
    Envelope.ofReceived { m with attributes := m.attributes.insert "body" (.binary payload') } =
      (Envelope.ofReceived m).map fun e => { e with payload := payload' } := by
  have kept {name : String} (other : "body" ≠ name) :
      (m.attributes.insert "body" (.binary payload')).find? name = m.attributes.find? name := by
    rw [Dictionary.find?_insert, if_neg other]
  have read : payloadOf m.attributes = .ok payload := by
    rw [payloadOf, show m.attributes.find? payloadKey = _ from body]
  have read' : payloadOf (m.attributes.insert "body" (.binary payload')) = .ok payload' := by
    rw [payloadOf, payloadKey, Dictionary.find?_insert, if_pos rfl]
  have named : Named m.attributes payload tag := .own type filled
  have named' : Named (m.attributes.insert "body" (.binary payload')) payload' tag :=
    .own ((kept (by decide)).trans type) filled
  rw [ofReceived_eq, ofReceived_eq, read, read', Except.bind, Except.bind, named.typeNameOf,
    named'.typeNameOf, headersKey, kept (by decide)]
  cases Headers.ofAttribute (m.attributes.find? "headers") <;> rfl

end Received

/-- **Deliveries are read as envelopes when they have the wire format.** A delivery is accepted when
its attribute `body` is binary, its attribute `type` is a text that is not empty or the payload is a
frame that names a type, and its attribute `headers` is missing or is binary and holds headers. The
name in the attribute is preferred to that in the payload, and the payload is passed on as it is.
Otherwise the error is that of the first condition that is not met.

Deliveries that agree in these three attributes, the identifier, the receipt and the receive count
have the same outcome. Where the attribute names the type, the payload changes nothing but the
payload of the envelope. Among the written forms of JSON values the frames that name a type are
those of objects in which `@type` occurs once and is a text, and those of arrays of one text. -/
theorem Envelope.accepts_wire_format (m : Received) :
    ((∃ e, ofReceived m = .ok e) ↔
      (∃ payload, m.attributes.find? "body" = some (.binary payload) ∧
        ((∃ tag, m.attributes.find? "type" = some (.string tag) ∧ tag ≠ "") ∨
          ∃ name, frameTag.decoder.run payload = .ok name)) ∧
      (m.attributes.find? "headers" = none ∨ ∃ b h,
        m.attributes.find? "headers" = some (.binary b) ∧
          (Json.Decoder.dictionary Header.decoder).run b = .ok h)) ∧
    (∀ e, ofReceived m = .ok e ↔ m.Conforms e) ∧
    (∀ f, ofReceived m = .error f ↔ m.Violates f) ∧
    (∀ m' : Received, m'.attributes.find? "body" = m.attributes.find? "body" →
      m'.attributes.find? "type" = m.attributes.find? "type" →
      m'.attributes.find? "headers" = m.attributes.find? "headers" →
      m'.id = m.id → m'.receipt = m.receipt → m'.receiveCount = m.receiveCount →
      ofReceived m' = ofReceived m) ∧
    (∀ tag payload payload', m.attributes.find? "type" = some (.string tag) → tag ≠ "" →
      m.attributes.find? "body" = some (.binary payload) →
      ofReceived { m with attributes := m.attributes.insert "body" (.binary payload') } =
        (ofReceived m).map fun e => { e with payload := payload' }) ∧
    ∀ (v : Json) name, frameTag.decoder.run v.encode = .ok name ↔ v.Tags name := by
  refine ⟨⟨fun accepted => ?_, fun conditions => ?_⟩, fun e => Received.ofReceived_eq_ok_iff,
    fun f => Received.ofReceived_eq_error_iff,
    fun m' body type headers id receipt count =>
      Received.ofReceived_congr body type headers id receipt count,
    fun tag payload payload' type filled body =>
      Received.ofReceived_insert_body type filled body payload', run_frameTag_iff⟩
  · obtain ⟨e, accepted⟩ := accepted
    obtain ⟨body, named, headed, -⟩ := Received.ofReceived_eq_ok_iff.1 accepted
    refine ⟨⟨e.payload, body, ?_⟩, ?_⟩
    · cases named with
      | own text filled => exact .inl ⟨_, text, filled⟩
      | frame nameless tagged => exact .inr ⟨_, tagged⟩
    · generalize m.attributes.find? "headers" = a, e.headers = h at headed
      cases headed with
      | absent => exact .inl rfl
      | binary read => exact .inr ⟨_, _, rfl, read⟩
  · obtain ⟨⟨payload, body, type⟩, headers⟩ := conditions
    have named : ∃ name, Received.Named m.attributes payload name := by
      rcases Received.nameless_or_own (m.attributes.find? "type") with
        nameless | ⟨tag, text, filled⟩
      · rcases type with ⟨tag, text, filled⟩ | ⟨name, tagged⟩
        · exact ⟨tag, .own text filled⟩
        · exact ⟨name, .frame nameless tagged⟩
      · exact ⟨tag, .own text filled⟩
    have headed : ∃ h, Received.Headed (m.attributes.find? "headers") h := by
      rcases headers with absent | ⟨b, h, there, read⟩
      · exact ⟨∅, absent ▸ .absent⟩
      · exact ⟨h, there ▸ .binary read⟩
    obtain ⟨name, named⟩ := named
    obtain ⟨h, headed⟩ := headed
    exact ⟨⟨m.id, m.receipt, name, h, payload, m.receiveCount⟩,
      Received.Conforms.ofReceived ⟨body, named, headed, rfl, rfl, rfl⟩⟩

/-! ### An order without a label -/

namespace Sample

/-- A frame that names the type behind a value with a name of its own. -/
def parcelFrame : Json :=
  .object [("value", .object [("@type", .string "inner")]), ("@type", .string "order")]

/-- The delivery of the frame, in which the label is empty. -/
def unlabelled : Received where
  id := ⟨"m-2", by decide⟩
  receipt := ⟨"r-2"⟩
  body := "envelope"
  attributes := .ofList [("body", .binary parcelFrame.encode), ("type", .string "")]
  receiveCount := 3

/-- The same delivery with another body and one more attribute. -/
def stamped : Received :=
  { unlabelled with
    body := "other"
    attributes := unlabelled.attributes.insert "trace" (.number "7") }

/-- A delivery with a label, whose payload is no frame. -/
def labelled : Received :=
  { unlabelled with
    attributes := .ofList [("body", .binary [0xff]), ("type", .string "order")] }

/-- A delivery in which the label, the payload and the headers are wrong. -/
def spoiled : Received :=
  { unlabelled with
    attributes := .ofList [("body", .binary []), ("type", .number "1"),
      ("headers", .string "none")] }

end Sample

/-- The type is found in the frame, whatever else the delivery has; a label is preferred, and then
the payload may be anything; and of several faults the first one counts. -/
theorem Envelope.accepts_wire_format_of_orders :
    (∃ e, ofReceived Sample.unlabelled = .ok e ∧ e.typeName = "order" ∧
      ofReceived Sample.stamped = .ok e) ∧
    (∃ e, ofReceived Sample.labelled = .ok e ∧ e.typeName = "order" ∧
      ofReceived { Sample.labelled with
        attributes := Sample.labelled.attributes.insert "body" (.binary []) } =
          .ok { e with payload := [] }) ∧
    ofReceived Sample.spoiled = .error (.missingTypeTag .ended) := by
  obtain ⟨-, accepted, -, alike, -, frames⟩ := accepts_wire_format Sample.unlabelled
  obtain ⟨-, accepted', -, -, blind, -⟩ := accepts_wire_format Sample.labelled
  obtain ⟨-, -, refused, -⟩ := accepts_wire_format Sample.spoiled
  have tagged := (frames Sample.parcelFrame "order").2 (.object rfl)
  have plain : Sample.unlabelled.Conforms
      ⟨⟨"m-2", by decide⟩, ⟨"r-2"⟩, "order", ∅, Sample.parcelFrame.encode, 3⟩ :=
    ⟨rfl, .frame .empty tagged, .absent, rfl, rfl, rfl⟩
  have marked : Sample.labelled.Conforms
      ⟨⟨"m-2", by decide⟩, ⟨"r-2"⟩, "order", ∅, [0xff], 3⟩ :=
    ⟨rfl, .own rfl (by decide), .absent, rfl, rfl, rfl⟩
  have empty : Sample.spoiled.attributes.find? "body" = some (.binary []) := rfl
  have first : Sample.spoiled.Violates (.missingTypeTag .ended) :=
    .unnamed empty (.number "1") (by decide +kernel)
  have stamped := alike Sample.stamped rfl rfl rfl rfl rfl rfl
  have other := blind "order" [0xff] [] rfl (by decide) rfl
  refine ⟨⟨_, (accepted _).2 plain, rfl, stamped.trans ((accepted _).2 plain)⟩,
    ⟨_, (accepted' _).2 marked, rfl, ?_⟩, (refused _).2 first⟩
  rw [other, (accepted' _).2 marked]
  rfl

end Courier
