import Courier.Broker.Basic
import Courier.Proofs.Base64
import Courier.Proofs.Publisher
import Courier.Sqs.Client

/-!
# The two backends carry the same messages

The queue service has its own form of attributes. What goes out in that form comes back as it was,
whatever the names and values are, so that a delivery by the service is the delivery that the
in-memory backend makes, and the same envelope or the same error is read from both. Both backends
measure messages alike and refuse the same ones with the same error, before anything else happens.

## Main definitions

* `Sqs.wired`: attributes in the form of the service.
* `Sqs.Message.Carries`: a received message has the content of a message that was sent.
* `Sqs.Sends`: how a message is sent over a transport.

## Main results

* `Sqs.attributes_of_input`: what is sent to the service can be read back.
* `Sqs.Message.Carries.received`: a message of the service is the delivery of what was sent.
* `Sqs.send_of_large`, `Broker.send_of_large`: both backends refuse a message that is too large.
* `Sqs.backends_alike`: the two backends carry the same messages.
-/

namespace Courier

namespace Sqs

/-! ### Attributes -/

namespace WireAttribute

theorem hasType_ofAttribute (base : String) (a : Attribute) :
    (ofAttribute a).hasType base = base.toList.isPrefixOf a.dataType.toList := by
  cases a <;> rfl

theorem attribute?_ofAttribute (a : Attribute) : (ofAttribute a).attribute? = some a := by
  rw [attribute?, hasType_ofAttribute, hasType_ofAttribute]
  cases a <;> simp [Attribute.dataType, ofAttribute]

theorem wireAttribute?_toJson (v : WireAttribute) : wireAttribute? v.toJson = some v := by
  obtain ⟨dataType, text, bytes⟩ := v
  have decoded (b : Bytes) : bytes? (.string (Base64.text b)) = some b := by
    simp [bytes?, text?, Base64.ofText_text, Base64.decode_encode, Except.toOption]
  cases text <;> cases bytes <;>
    simp [toJson, wireAttribute?, textAt?, memberAt?, members?, text?, decoded, List.lookup_cons]

end WireAttribute

/-- Attributes in the form of the service. -/
def wired (d : Dictionary Attribute) : Dictionary WireAttribute where
  entries := d.entries.map fun e => (e.1, .ofAttribute e.2)
  ascending := List.pairwise_map.2 d.ascending

theorem dictionary?_wired (d : Dictionary Attribute) :
    dictionary? wireAttribute? (.object (d.entries.map fun e =>
      (e.1, (WireAttribute.ofAttribute e.2).toJson))) = some (wired d) := by
  have members (es : List (String × Attribute)) :
      members? (.object (es.map fun e => (e.1, (WireAttribute.ofAttribute e.2).toJson))) =
        some (es.map fun e => (e.1, (WireAttribute.ofAttribute e.2).toJson)) := by
    refine congrArg some (List.filter_eq_self.2 fun member mem => ?_)
    obtain ⟨e, -, rfl⟩ := List.mem_map.1 mem
    rfl
  have read (es : List (String × Attribute)) :
      (es.map fun e => (e.1, (WireAttribute.ofAttribute e.2).toJson)).mapM
        (fun x => (wireAttribute? x.2).map (x.1, ·)) =
          some (es.map fun e => (e.1, WireAttribute.ofAttribute e.2)) := by
    induction es with
    | nil => rfl
    | cons e es ih =>
      simp [List.mapM_cons, WireAttribute.wireAttribute?_toJson, ih]
  have whole : Dictionary.ofList (wired d).entries = wired d := Dictionary.ofList_entries _
  rw [dictionary?, members]
  simp only [Option.bind_eq_bind, Option.bind_some, read]
  exact congrArg some whole

/-- The attributes in a send call can be read back. -/
theorem attributes_of_input (q : Identity) (m : Outbound) :
    memberAt? (dictionary? wireAttribute?) "MessageAttributes" (Call.send q m).input =
      some (some (wired m.attributes)) := by
  have members : ∃ rest, members? (Call.send q m).input = some
      (("QueueUrl", .string q.url) :: ("MessageBody", .string m.body) ::
        ("MessageAttributes", .object (m.attributes.entries.map fun e =>
          (e.1, (WireAttribute.ofAttribute e.2).toJson))) :: rest) := ⟨_, rfl⟩
  obtain ⟨rest, members⟩ := members
  rw [memberAt?, members]
  simp [List.lookup_cons, dictionary?_wired]

/-! ### Deliveries -/

namespace Message

/-- A message of the service has the content of a message that was sent. -/
structure Carries (sm : Message) (m : Outbound) : Prop where
  body : sm.body = some m.body
  attributes : sm.attributes = wired m.attributes

variable {sm : Message} {m : Outbound}

theorem Carries.kept (h : sm.Carries m) : sm.kept = m.attributes := by
  have entries (es : List (String × Attribute)) :
      (es.map fun e => (e.1, WireAttribute.ofAttribute e.2)).filterMap
        (fun x => x.2.attribute?.map (x.1, ·)) = es := by
    simp [WireAttribute.attribute?_ofAttribute]
  rw [Message.kept, h.attributes, wired, entries]
  exact Dictionary.ofList_entries m.attributes

/-- A message of the service that has an identifier and a receipt is the delivery of what was
sent. -/
theorem Carries.received (h : sm.Carries m) {id : MessageId} {receipt : String}
    (named : sm.id = some id.text) (receipted : sm.receipt = some receipt) :
    sm.received = .ok ⟨id, ⟨receipt⟩, m.body, m.attributes, sm.receiveCount⟩ := by
  have id_eq : MessageId.ofText id.text = .ok id := dif_neg id.nonempty
  simp only [Message.received, named, receipted, id_eq, h.body, Option.getD_some, h.kept]

/-- The delivery is that of the in-memory backend, if identifier, receipt and number are. -/
theorem Carries.received_eq_delivered (h : sm.Carries m) {log : List Incident} {b : Broker}
    {url url' : String} {now : Nat} {r : Received} (reached : Broker.Reached log b)
    (stored : .stored url (m.toStored r.id now) ∈ log) (delivered : .delivered url' r ∈ log)
    (named : sm.id = some r.id.text) (receipted : sm.receipt = some r.receipt.text)
    (numbered : sm.receiveCount = r.receiveCount) : sm.received = .ok r := by
  obtain ⟨s, stored', id, body, attributes⟩ :=
    reached.changes.delivered_as_stored (mem_deliveredAt.2 delivered)
  obtain ⟨-, rfl⟩ := reached.changes.ledger.stored_unique stored' (mem_storedAt.2 stored) id
  have body : m.body = r.body := body
  have attributes : m.attributes = r.attributes := attributes
  rw [h.received named receipted, numbered, body, attributes]

end Message

/-- An exchange makes its call and reads the output. -/
theorem run_exchange {σ α : Type} (t : Transport σ) (c : Call) (read : Json → Except QueueError α)
    (s : σ) : (exchange t c read).run s =
      ((((t c.operation c.input).run s).1.output? c.subject).bind read,
        ((t c.operation c.input).run s).2) := rfl

/-- A receive call is answered with the deliveries of the batch in the reply. -/
theorem receive_of_output {σ : Type} {t : Transport σ} {s s' : σ} {q : Identity}
    {o : ReceiveOptions} {v : Json} {batch : List Message}
    (reply : (t (Call.receive q o).operation (Call.receive q o).input).run s = (.output v, s'))
    (read : batchOf? v = some batch) : (receive t q o).run s = (.ok (collect batch), s') := by
  rw [receive, run_exchange, reply]
  simp only [Reply.output?, Except.bind, read, readable, Except.map]

/-- A receive call gives the delivery that a message in the reply is. -/
theorem mem_of_receive {σ : Type} {t : Transport σ} {s s' : σ} {q : Identity} {o : ReceiveOptions}
    {v : Json} {batch : List Message} {sm : Message} {r : Received}
    (reply : (t (Call.receive q o).operation (Call.receive q o).input).run s = (.output v, s'))
    (read : batchOf? v = some batch) (mem : sm ∈ batch) (is : sm.received = .ok r) :
    ∃ rs, (receive t q o).run s = (.ok rs, s') ∧ r ∈ rs :=
  ⟨collect batch, receive_of_output reply read,
    List.mem_filterMap.2 ⟨sm, mem, by rw [is]; rfl⟩⟩

/-! ### Messages that are too large -/

/-- The size of a message is that of its body and, for each attribute, of name, value and type
name. -/
theorem size_eq (m : Outbound) : m.size = m.body.utf8ByteSize +
    (m.attributes.entries.map fun e => e.1.utf8ByteSize + e.2.size).sum := by
  rw [Outbound.size]
  induction m.attributes.entries with
  | nil => rfl
  | cons e es ih =>
    rw [List.foldr_cons, ih, List.map_cons, List.sum_cons]
    omega

/-- A message that is too large is refused without a call. -/
theorem send_of_large {σ : Type} (t : Transport σ) (q : Identity) {m : Outbound}
    (large : sizeLimit < m.size) :
    send t q m = pure (.error (.messageTooLarge m.size sizeLimit)) :=
  if_pos large

theorem send_of_fits {σ : Type} (t : Transport σ) (q : Identity) {m : Outbound}
    (fits : m.size ≤ sizeLimit) : send t q m = exchange t (.send q m) (fun v => do
      (MessageId.ofText (← requiredText (.send q m) "MessageId" v)).mapError .validation) :=
  if_neg (Nat.not_lt.2 fits)

theorem bind_ne {α β : Type} {x : Except QueueError α} {f : α → Except QueueError β}
    {e : QueueError} (first : x ≠ .error e) (second : ∀ a, f a ≠ .error e) :
    x.bind f ≠ .error e := by
  cases x with
  | error e' => exact fun same => first (congrArg Except.error (Except.error.inj same))
  | ok a => exact second a

theorem failureOf_ne (subject code reason : String) (n k : Nat) :
    failureOf subject code reason ≠ .messageTooLarge n k := by
  unfold failureOf
  split
  · nofun
  · split
    · nofun
    · split <;> nofun

theorem output?_ne (subject : String) (reply : Reply) (n k : Nat) :
    reply.output? subject ≠ .error (.messageTooLarge n k) := by
  cases reply with
  | output v => nofun
  | unreachable account => nofun
  | failure code message account =>
    cases code with
    | none => nofun
    | some code => exact fun same => failureOf_ne _ _ _ n k (Except.error.inj same)

theorem requiredText_ne (c : Call) (name : String) (v : Json) (n k : Nat) :
    requiredText c name v ≠ .error (.messageTooLarge n k) := by
  unfold requiredText
  cases textAt? name v with
  | none => nofun
  | some text => cases text <;> nofun

/-- The service is never the one to say that a message is too large. -/
theorem send_ne {σ : Type} (t : Transport σ) (q : Identity) {m : Outbound}
    (fits : m.size ≤ sizeLimit) (s : σ) (n k : Nat) :
    ((send t q m).run s).1 ≠ .error (.messageTooLarge n k) := by
  rw [send_of_fits t q fits, run_exchange]
  refine bind_ne (output?_ne _ _ n k) fun v => bind_ne (requiredText_ne _ _ v n k) fun text => ?_
  cases MessageId.ofText text <;> nofun

end Sqs

namespace Broker

variable {b : Broker} {m : Outbound}

/-- A message that is too large is refused, and the queues stay as they are. -/
theorem send_of_large (unspent : b.faults.send = 0) (now : Nat) (q : Identity)
    (large : sizeLimit < m.size) : b.send now q m =
      (.error (.messageTooLarge m.size sizeLimit),
        { b with calls.send := b.calls.send + 1 }) := by
  have none_ : ({ b with calls.send := b.calls.send + 1 } : Broker).spendFault .send = none :=
    spendFault_eq_none.2 unspent
  simp only [send, none_, if_pos large]

theorem send_ne (b : Broker) (now : Nat) (q : Identity) (fits : m.size ≤ sizeLimit) (n k : Nat) :
    (b.send now q m).1 ≠ .error (.messageTooLarge n k) := by
  simp only [send, if_neg (Nat.not_lt.2 fits)]
  split
  · next spent =>
    obtain ⟨n, -, rfl, -⟩ := spendFault_eq_some spent
    simp
  · split
    · simp [notFound]
    · split <;> simp

end Broker

namespace Sqs

/-- How a message is sent over a transport. When it is too large, it is refused without a call.
Otherwise one call carries it, and the reply to that call tells its identifier. -/
structure Sends {σ : Type} (t : Transport σ) (q : Identity) (m : Outbound) : Prop where
  refused_iff : ∀ s,
    (∃ n k, ((send t q m).run s).1 = .error (.messageTooLarge n k)) ↔ 262144 < m.size
  uncalled : 262144 < m.size → send t q m = pure (.error (.messageTooLarge m.size 262144))
  called : m.size ≤ 262144 → ∀ s,
    ((send t q m).run s).2 = ((t "SendMessage" (Call.send q m).input).run s).2
  answered : m.size ≤ 262144 → ∀ s v (id : MessageId),
    ((t "SendMessage" (Call.send q m).input).run s).1 = .output v →
    textAt? "MessageId" v = some (some id.text) → ((send t q m).run s).1 = .ok id

theorem sends {σ : Type} (t : Transport σ) (q : Identity) (m : Outbound) : Sends t q m where
  refused_iff s := by
    constructor
    · rintro ⟨n, k, refused⟩
      exact Nat.lt_of_not_le fun fits => send_ne t q fits s n k refused
    · intro large
      rw [send_of_large t q large]
      exact ⟨_, _, rfl⟩
  uncalled large := send_of_large t q large
  called fits s := by
    rw [send_of_fits t q fits, run_exchange]
    rfl
  answered fits s v id reply named := by
    have called : ((t (Call.send q m).operation (Call.send q m).input).run s).1 = .output v := reply
    have own : MessageId.ofText id.text = .ok id := dif_neg id.nonempty
    rw [send_of_fits t q fits, run_exchange, called]
    simp only [Reply.output?, Except.bind, Bind.bind, requiredText, readable, named, Pure.pure,
      Except.pure, own, Except.mapError]

/-- The two backends carry the same messages. The attributes in a send call can be read back, and a
message of the service with the content of what was sent is the delivery of it: the one that the
in-memory backend makes, if identifier, receipt and number are the same, so that the same envelope
or the same error is read from it. Both backends refuse a message for its size exactly when it is
larger than 262144 bytes, with the same error, before anything is stored or any call is made. Any
other message is sent to the service with one call. -/
theorem backends_alike (m : Outbound) :
    (∀ q, memberAt? (dictionary? wireAttribute?) "MessageAttributes" (Call.send q m).input =
      some (some (wired m.attributes))) ∧
    (∀ sm : Message, sm.Carries m →
      (∀ (id : MessageId) (receipt : String), sm.id = some id.text → sm.receipt = some receipt →
        sm.received = .ok ⟨id, ⟨receipt⟩, m.body, m.attributes, sm.receiveCount⟩) ∧
      (∀ log b url url' now r, Broker.Reached log b →
        .stored url (m.toStored r.id now) ∈ log → .delivered url' r ∈ log →
        sm.id = some r.id.text → sm.receipt = some r.receipt.text →
        sm.receiveCount = r.receiveCount →
        sm.received = .ok r ∧ sm.received.map Envelope.ofReceived = .ok (Envelope.ofReceived r))) ∧
    (∀ (σ : Type) (t : Transport σ) (s s' : σ) q o v batch sm r,
      (t (Call.receive q o).operation (Call.receive q o).input).run s = (.output v, s') →
      batchOf? v = some batch → sm ∈ batch → sm.received = .ok r →
      ∃ rs, (receive t q o).run s = (.ok rs, s') ∧ r ∈ rs) ∧
    m.size = m.body.utf8ByteSize +
      (m.attributes.entries.map fun e => e.1.utf8ByteSize + e.2.size).sum ∧
    (∀ (σ : Type) (t : Transport σ) q, Sends t q m) ∧
    (∀ (b : Broker) now q, b.faults.send = 0 →
      ((∃ n k, (b.send now q m).1 = .error (.messageTooLarge n k)) ↔ 262144 < m.size) ∧
      (262144 < m.size → b.send now q m = (.error (.messageTooLarge m.size 262144),
        { b with calls.send := b.calls.send + 1 }))) := by
  refine ⟨fun q => attributes_of_input q m, ?_, ?_, size_eq m, fun σ t q => sends t q m, ?_⟩
  · intro sm carries
    refine ⟨fun id receipt named receipted => carries.received named receipted, ?_⟩
    intro log b url url' now r reached stored delivered named receipted numbered
    have same := carries.received_eq_delivered reached stored delivered named receipted numbered
    exact ⟨same, by rw [same]; rfl⟩
  · intro σ t s s' q o v batch sm r reply read mem is
    exact mem_of_receive reply read mem is
  · intro b now q unspent
    refine ⟨⟨?_, fun large => ?_⟩, fun large => Broker.send_of_large unspent now q large⟩
    · rintro ⟨n, k, refused⟩
      exact Nat.lt_of_not_le fun fits => b.send_ne now q fits n k refused
    · rw [Broker.send_of_large unspent now q large]
      exact ⟨_, _, rfl⟩

end Sqs

/-! ### A message with attributes of all types -/

namespace Sample

/-- A message whose attributes are empty or no text. -/
def oddments : Outbound where
  body := ""
  attributes := .ofList
    [("blank", .string ""), ("count", .number "7"), ("empty", .binary []),
      ("raw", .binary [255, 0, 254])]

/-- The delivery. -/
def cart : Received where
  id := ⟨Mint.text 0, Mint.text_ne_empty 0⟩
  receipt := ⟨Mint.text 1⟩
  body := ""
  attributes := oddments.attributes
  receiveCount := 1

theorem carted : ∃ log b, Broker.Reached log b ∧
    .stored window.url (oddments.toStored cart.id 0) ∈ log ∧ .delivered window.url cart ∈ log := by
  have reached := ((Broker.Reached.start.call 0 (.create counter)).call 0
    (.send window oddments)).call 0 (.check window glance)
  exact ⟨_, _, reached, .head _, .tail _ (.head _)⟩

/-- The message as the service hands it out. -/
def crate : Sqs.Message where
  id := some (Mint.text 0)
  receipt := some (Mint.text 1)
  body := some ""
  attributes := Sqs.wired oddments.attributes
  system := .ofList [(Sqs.receiveCountName, "1")]

end Sample

namespace Sqs

/-- The service hands out what the in-memory backend hands out. -/
theorem backends_alike_of_oddments :
    Sample.crate.received = .ok Sample.cart ∧ Sample.oddments.size = 46 := by
  obtain ⟨-, deliveries, -, size, -⟩ := backends_alike Sample.oddments
  obtain ⟨-, same⟩ := deliveries Sample.crate ⟨rfl, rfl⟩
  obtain ⟨log, b, reached, stored, delivered⟩ := Sample.carted
  refine ⟨?_, size.trans (by decide +kernel)⟩
  exact (same log b _ _ 0 Sample.cart reached stored delivered rfl rfl (by decide +kernel)).1

end Sqs

end Courier
