import Courier.Publisher
import Courier.Proofs.Broker.Entries
import Courier.Proofs.Broker.Journal
import Courier.Proofs.Envelope

/-!
# What publishers send can be read

A send that succeeds stores a message that will be delivered until somebody deletes it. Whether a
consumer can make an envelope of its deliveries is decided by the headers when the message is sent:
finite headers can be read from every delivery, and others from none. The message itself, its type,
the instant and what else the broker is asked to do do not matter.

## Main definitions

* `Received.Carries`: what is made of a delivery of a message with given headers.

## Main results

* `Received.carries_of_attributes`: the attributes of a sent message decide what is made of it.
* `Broker.Reached.attributes_of_stored`: a message keeps its attributes until it is delivered.
* `Publisher.decodes_iff_finite`: the deliveries of a message that was sent can be read exactly if
  its headers are finite.
-/

namespace Courier

section

variable {M : Type} [Message M] {m : M} {headers : Headers}

theorem Outbound.exists_json {sent : Outbound} (sending : ofMessage m headers = .ok sent) :
    ∃ v, Message.toJson m = .ok v := by
  cases json : Message.toJson m with
  | ok v => exact ⟨v, rfl⟩
  | error reason =>
    rw [ofMessage, writeFrame, json] at sending
    cases sending

/-- The envelope of a delivery is made exactly if its headers can be read: payload and type are
always found. -/
theorem Envelope.ofReceived_ofMessage {sent : Outbound}
    (sending : Outbound.ofMessage m headers = .ok sent) :
    ∃ payload, ∀ id receipt text count,
      ofReceived ⟨id, receipt, text, sent.attributes, count⟩ =
        (Headers.ofAttribute (if headers.isEmpty then none else some headers.toAttribute)).map
          (⟨id, receipt, Message.typeName M, ·, payload, count⟩) := by
  obtain ⟨v, json⟩ := Outbound.exists_json sending
  obtain ⟨sent', sending', body, type, header⟩ := Outbound.ofMessage_eq json headers
  obtain rfl : sent' = sent := Except.ok.inj (sending'.symm.trans sending)
  have name := typeNameOf_named type (run_frameTag (M := M) v)
  have read : payloadOf sent'.attributes = .ok (frameOf M v).encode := by rw [payloadOf, body]
  refine ⟨(frameOf M v).encode, fun id receipt text count => ?_⟩
  simp only [ofReceived, read, name, header, bind, Except.bind]
  cases Headers.ofAttribute (if headers.isEmpty then none else some headers.toAttribute) <;> rfl

/-! ### Deliveries -/

/-- What is made of a delivery of a message of the type `M` with headers: an envelope, if they are
finite, and else the refusal of the headers. -/
structure Received.Carries (M : Type) [Message M] (headers : Headers) (r : Received) : Prop where
  readable : headers.Finite → ∃ e, Envelope.ofReceived r = .ok e ∧
    e.typeName = Message.typeName M ∧ headers.Resembles e.headers
  refused : ¬headers.Finite →
    Envelope.ofReceived r = .error (.invalidHeaders Header.missingDouble)

theorem Received.Carries.isOk_iff {r : Received} (carries : r.Carries M headers) :
    (∃ e, Envelope.ofReceived r = .ok e) ↔ headers.Finite := by
  constructor
  · rintro ⟨e, read⟩
    by_contra special
    rw [carries.refused special] at read
    cases read
  · intro finite
    obtain ⟨e, read, -⟩ := carries.readable finite
    exact ⟨e, read⟩

theorem Received.Carries.resembles {r : Received} {e : Envelope} (carries : r.Carries M headers)
    (read : Envelope.ofReceived r = .ok e) :
    e.typeName = Message.typeName M ∧ headers.Resembles e.headers := by
  obtain ⟨e', read', described⟩ := carries.readable (carries.isOk_iff.1 ⟨e, read⟩)
  cases read.symm.trans read'
  exact described

theorem Received.Carries.fault_eq {r : Received} {f : EnvelopeError}
    (carries : r.Carries M headers) (failed : Envelope.ofReceived r = .error f) :
    f = .invalidHeaders Header.missingDouble := by
  by_cases finite : headers.Finite
  · obtain ⟨e, read, -⟩ := carries.readable finite
    cases read.symm.trans failed
  · exact Except.error.inj (failed.symm.trans (carries.refused finite))

/-- What is made of a delivery is decided by the attributes with which the message was sent. -/
theorem Received.carries_of_attributes {sent : Outbound} {r : Received}
    (sending : Outbound.ofMessage m headers = .ok sent) (same : r.attributes = sent.attributes) :
    r.Carries M headers := by
  obtain ⟨id, receipt, text, attributes, count⟩ := r
  obtain rfl : attributes = sent.attributes := same
  obtain ⟨payload, envelope⟩ := Envelope.ofReceived_ofMessage sending
  refine ⟨fun finite => ?_, fun special => ?_⟩
  · rw [envelope]
    by_cases empty : headers.isEmpty
    · refine ⟨⟨id, receipt, Message.typeName M, headers, payload, count⟩, ?_, rfl, ?_⟩
      · rw [if_pos empty, Headers.ofAttribute_none empty]
        rfl
      · rw [Headers.Resembles, List.isEmpty_iff.1 empty]
        exact .nil
    · obtain ⟨headers', read, resembles⟩ := Headers.ofAttribute_finite finite
      refine ⟨⟨id, receipt, Message.typeName M, headers', payload, count⟩, ?_, rfl, resembles⟩
      rw [if_neg empty, read]
      rfl
  · have filled : ¬headers.isEmpty := by
      intro empty
      refine special ?_
      rw [Headers.Finite, List.isEmpty_iff.1 empty]
      exact List.forall_mem_nil _
    rw [envelope, if_neg filled, Headers.ofAttribute_special special]
    rfl

end

/-- A message is delivered with the attributes with which it was stored, whatever queue the delivery
comes from. -/
theorem Broker.Reached.attributes_of_stored {log : List Incident} {b : Broker} {url : String}
    {s : Stored} {r : Received} (h : Reached log b) (stored : s ∈ storedAt url log)
    (delivered : r ∈ deliveries log) (same : r.id = s.id) : r.attributes = s.attributes := by
  obtain ⟨url', delivered⟩ := mem_deliveries.1 delivered
  obtain ⟨s', stored', id, -, attributes⟩ := h.changes.delivered_as_stored delivered
  obtain ⟨-, rfl⟩ := h.changes.ledger.stored_unique stored' stored (id.trans same)
  exact attributes.symm

/-! ### Sends -/

namespace Publisher

variable {M : Type} [Message M] {p : Publisher} {m : M} {o : SendOptions}

/-- A send that succeeds has made a message and sent it, after a fresh identifier was drawn. -/
theorem send_of_sendOver {now : Nat} {b b' : Broker} {id : MessageId}
    (sent : p.sendOver now m o b = (.ok id, b')) :
    ∃ out, p.outbound m o b.mint.draw.1 = .ok out ∧
      (b.after now .draw).send now p.queue out = (.ok id, b') := by
  have call : p.sendOver now m o b =
      p.send (Broker.backend now) m o b.mint.draw.1 (b.after now .draw) := rfl
  rw [call, send] at sent
  cases made : p.outbound m o b.mint.draw.1 with
  | error e =>
    rw [made] at sent
    cases sent
  | ok out =>
    rw [made] at sent
    exact ⟨out, rfl, sent⟩

theorem attributes_of_outbound {fresh : String} {out : Outbound}
    (made : p.outbound m o fresh = .ok out) :
    ∃ sent, Outbound.ofMessage m o.headers = .ok sent ∧ out.attributes = sent.attributes := by
  rw [outbound] at made
  cases sending : Outbound.ofMessage m o.headers with
  | error e =>
    rw [sending] at made
    cases made
  | ok sent =>
    rw [sending] at made
    cases made
    exact ⟨sent, rfl, rfl⟩

/-- A send that succeeds repeats an earlier one, or stores a message with the attributes of the
value. -/
theorem stored_of_sendOver {log : List Incident} {now : Nat} {b b' : Broker} {id : MessageId}
    (h : Broker.Reached log b) (sent : p.sendOver now m o b = (.ok id, b')) :
    ∃ new, Broker.Reached (log ++ new) b' ∧
      (new = [] ∧ (∃ s ∈ storedAt p.queue.url log, s.id = id) ∨
        ∃ s out, new = [.stored p.queue.url s] ∧ s.id = id ∧
          Outbound.ofMessage m o.headers = .ok out ∧ s.attributes = out.attributes) := by
  obtain ⟨out, made, call⟩ := send_of_sendOver sent
  obtain ⟨plain, sending, same⟩ := attributes_of_outbound made
  have drawn : Broker.Reached log (b.after now .draw) := List.append_nil log ▸ h.call now .draw
  have reached := drawn.call now (.send p.queue out)
  have after : (b.after now .draw).after now (.send p.queue out) = b' := congrArg Prod.snd call
  have answer : ((b.after now .draw).send now p.queue out).1 = .ok id := congrArg Prod.fst call
  rw [after] at reached
  refine ⟨_, reached, ?_⟩
  cases (b.after now .draw).send_outcome now p.queue out with
  | refused failed =>
    rw [failed] at answer
    cases answer
  | @repeated queue w there old known incidents =>
    rw [known] at answer
    cases answer
    exact .inl ⟨incidents, List.mem_map.1 (drawn.windowsStored p.queue.url queue there w old)⟩
  | @stored queue there known incidents =>
    rw [known] at answer
    cases answer
    exact .inr ⟨_, plain, incidents, rfl, sending, same⟩

/-- **What was sent can be read exactly if its headers are finite.**  The attribute that is made of
headers can be read exactly if none of them is an infinity or not a number. A send that succeeds
either repeats an earlier one, whose message is there already, or stores a message. Of every
delivery of that message, however late and whatever happens before, an envelope is made exactly if
the headers are finite. The envelope names the type of the message and has headers of the same
names and values, up to the values of doubles. Without finite headers every delivery is refused
for the value of a double that is missing. -/
theorem decodes_iff_finite (p : Publisher) (m : M) (o : SendOptions) :
    ((∃ headers, Headers.ofAttribute (some o.headers.toAttribute) = .ok headers) ↔
      o.headers.Finite) ∧
    ∀ (log : List Incident) (b : Broker), Broker.Reached log b →
      ∀ (now : Nat) (id : MessageId) (b' : Broker), p.sendOver now m o b = (.ok id, b') →
      ∃ new, Broker.Reached (log ++ new) b' ∧
        (new = [] ∧ (∃ s ∈ storedAt p.queue.url log, s.id = id) ∨
        (∃ s, new = [.stored p.queue.url s] ∧ s.id = id) ∧
        ∀ (later : List Incident) (b'' : Broker), Broker.Reached (log ++ new ++ later) b'' →
          ∀ r ∈ deliveries (log ++ new ++ later), r.id = id →
            ((∃ e, Envelope.ofReceived r = .ok e) ↔ o.headers.Finite) ∧
            (∀ e, Envelope.ofReceived r = .ok e →
              e.typeName = Message.typeName M ∧ o.headers.Resembles e.headers) ∧
            (∀ f, Envelope.ofReceived r = .error f →
              f = .invalidHeaders Header.missingDouble)) := by
  refine ⟨o.headers.ofAttribute_isOk_iff, fun log b h now id b' sent => ?_⟩
  obtain ⟨new, reached, ⟨rfl, repeated⟩ | ⟨s, out, rfl, rfl, sending, same⟩⟩ :=
    stored_of_sendOver h sent
  · exact ⟨[], reached, .inl ⟨rfl, repeated⟩⟩
  · refine ⟨_, reached, .inr ⟨⟨s, rfl, rfl⟩, fun later b'' ahead r delivered of => ?_⟩⟩
    have stored : s ∈ storedAt p.queue.url (log ++ [.stored p.queue.url s] ++ later) :=
      mem_storedAt.2 (by simp)
    have attributes := ahead.attributes_of_stored stored delivered of
    have carries : r.Carries M o.headers :=
      Received.carries_of_attributes sending (attributes.trans same)
    exact ⟨carries.isOk_iff, fun _ => carries.resembles, fun _ => carries.fault_eq⟩

end Publisher

namespace Sample

/-- A publisher to the drawer. -/
def registrar : Publisher :=
  ⟨{}, cabinet⟩

/-- A registration. -/
def registration : DomainRegistered where
  domain := "example.org"
  orderId := "o-1"

/-- A header with a finite double. -/
def measured : SendOptions where
  headers := .ofList [("load", .float 0.75)]

/-- A header with an infinity. -/
def overloaded : SendOptions where
  headers := .ofList [("load", .float (1.0 / 0.0))]

/-- The drawer after a registration has been sent to it. -/
def noted (o : SendOptions) : Broker :=
  (registrar.sendOver 0 registration o furnished).2

end Sample

namespace Publisher

/-- A registration with a finite header is delivered, and its delivery can be read. -/
theorem decodes_iff_finite_of_measured :
    Sample.measured.headers.Finite ∧
    ∃ r e, ((Sample.noted Sample.measured).check 1 Sample.cabinet {}).1 = .ok [r] ∧
      Envelope.ofReceived r = .ok e ∧ Sample.measured.headers.Resembles e.headers := by
  have finite : Sample.measured.headers.Finite := by decide +kernel
  have furnished := Broker.Reached.start.call 0 (.create Sample.drawer)
  have sent : Sample.registrar.sendOver 0 Sample.registration Sample.measured Sample.furnished =
      (.ok ⟨Mint.text 1, by decide⟩, Sample.noted Sample.measured) :=
    Prod.ext (by decide +kernel) rfl
  obtain ⟨-, sends⟩ := decodes_iff_finite Sample.registrar Sample.registration Sample.measured
  obtain ⟨new, reached, ⟨-, s, stored, -⟩ | ⟨-, reads⟩⟩ := sends _ _ furnished _ _ _ sent
  · cases stored
  · have shown := reached.call 1 (.check Sample.cabinet {})
    obtain ⟨r, checked, own⟩ : ∃ r, ((Sample.noted Sample.measured).check 1 Sample.cabinet {}).1 =
      .ok [r] ∧ r.id = ⟨Mint.text 1, by decide⟩ := ⟨_, rfl, by decide +kernel⟩
    have delivered : r ∈ deliveries ((Sample.noted Sample.measured).incidents 1
        (.check Sample.cabinet {})) := by
      rw [Broker.incidents, checked]
      exact List.mem_singleton.2 rfl
    obtain ⟨readable, resembles, -⟩ := reads _ _ shown r
      (by rw [deliveries_append]; exact List.mem_append_right _ delivered) own
    obtain ⟨e, read⟩ := readable.2 finite
    exact ⟨finite, r, e, checked, read, (resembles e read).2⟩

/-- A registration with an infinite header is sent and delivered, and its delivery cannot be
read. -/
theorem sends_unreadable :
    ∃ id r, (Sample.registrar.sendOver 0 Sample.registration Sample.overloaded
        Sample.furnished).1 = .ok id ∧
      ((Sample.noted Sample.overloaded).check 1 Sample.cabinet {}).1 = .ok [r] ∧ r.id = id ∧
      Envelope.ofReceived r = .error (.invalidHeaders (.wrongType .null "f64")) :=
  ⟨⟨Mint.text 1, by decide⟩, _, by decide +kernel, rfl, by decide +kernel, by decide +kernel⟩

end Publisher

end Courier
