import Courier.Lifecycle.Handlers
import Courier.Proofs.Pipeline.Correspondence
import Courier.Proofs.Publisher

/-!
# What the handlers of the worker send

The handler of registered domains sends one message at most: the completion of the order, to the
queue of its publisher. It ends well only after that message has been accepted. The other handlers
send nothing. What a handler may still do is a property of its activity that every step keeps, so
it decides what the handler has sent when it ends.

## Main definitions

* `Outbound.Completes`: a message tells that the order of a registration is completed.
* `Activity.Quiet`, `Activity.Publishes`: what an activity may still send.
* `Lifecycle.Progress`: what a handler has sent and may still do.

## Main results

* `Lifecycle.progress_of_start`: how a handler of the worker begins.
* `Lifecycle.Progress.leads`: the progress of a handler, wherever it has come to.
-/

namespace Courier

/-- A message that a handler has sent, with the answer. -/
structure Posting where
  queue : Identity
  message : Outbound
  answer : Except QueueError MessageId

/-- What a handler sends with an event. -/
def Event.posting? : Event → Option Posting
  | .sent _ q m r => some ⟨q, m, r⟩
  | _ => none

/-- Every delivery of the message tells that the order of a registration is completed, and names
the worker as its source. -/
def Outbound.Completes (m : Outbound) (event : DomainRegistered) : Prop :=
  ∀ id receipt text count, ∃ e,
    Envelope.ofReceived ⟨id, receipt, text, m.attributes, count⟩ = .ok e ∧
    e.typeName = "OrderStatusUpdate" ∧
    e.message OrderStatusUpdate = .ok ⟨event.orderId, .completed⟩ ∧
    e.headers.find? "source" = some (.string "lifecycle-worker")

/-- The envelope is that of a registration. -/
structure Envelope.Registers (e : Envelope) (event : DomainRegistered) : Prop where
  typeName : e.typeName = "DomainRegistered"
  message : e.message DomainRegistered = .ok event

namespace Activity

/-- The activity sends nothing, and can only end in the given ways. -/
inductive Quiet (ends : Outcome → Prop) : Activity → Prop
  | finish {o} (right : ends o) : Quiet ends (.finish o)
  | hang : Quiet ends .hang
  | sleep {ms next} (h : Quiet ends next) : Quiet ends (.sleep ms next)
  | note {entry next} (h : Quiet ends next) : Quiet ends (.note entry next)
  | draw {next} (h : ∀ id, Quiet ends (next id)) : Quiet ends (.draw next)

/-- The activity sends one message at most, a wanted one to the given queue. It ends well only after
that message has been accepted. -/
inductive Publishes (queue : Identity) (wanted : Outbound → Prop) : Activity → Prop
  | finish {o} (unwell : o ≠ .ok) : Publishes queue wanted (.finish o)
  | hang : Publishes queue wanted .hang
  | sleep {ms next} (h : Publishes queue wanted next) : Publishes queue wanted (.sleep ms next)
  | note {entry next} (h : Publishes queue wanted next) :
      Publishes queue wanted (.note entry next)
  | draw {next} (h : ∀ id, Publishes queue wanted (next id)) :
      Publishes queue wanted (.draw next)
  | send {m next} (right : wanted m)
      (rest : ∀ r, (next r).Quiet fun o => o = .ok → ∃ id, r = .ok id) :
      Publishes queue wanted (.send queue m next)

end Activity

namespace Lifecycle

/-! ### The handlers -/

theorem completes_of_outbound {p : Publisher} {event : DomainRegistered} {fresh : String}
    {m : Outbound} (made : p.outbound (completion event) completionOptions fresh = .ok m) :
    m.Completes event := by
  obtain ⟨sent, sending, attributes⟩ := Publisher.attributes_of_outbound made
  have free : completionOptions.headers.FloatFree := by decide
  intro id receipt text count
  obtain ⟨sent', e, sending', restores, read, -⟩ :=
    (completion event).restorable.delivers free id receipt count
  obtain rfl : sent' = sent := Except.ok.inj (sending'.symm.trans sending)
  have same : Envelope.ofReceived ⟨id, receipt, text, m.attributes, count⟩ =
      Envelope.ofReceived ⟨id, receipt, sent'.body, sent'.attributes, count⟩ := by
    rw [attributes]
    rfl
  have source : completionOptions.headers.asRead.find? "source" =
      some (.string "lifecycle-worker") := by
    decide
  exact ⟨e, same.trans read, restores.typeName, restores.message, restores.headers ▸ source⟩

theorem publishes_publishCompletion (p : Publisher) (ctx : Context) (event : DomainRegistered) :
    (publishCompletion p ctx event).Publishes p.queue (·.Completes event) := by
  refine .note (.draw fun fresh => ?_)
  cases made : p.outbound (completion event) completionOptions fresh with
  | error e => exact .finish nofun
  | ok m =>
    refine .send (completes_of_outbound made) fun r => ?_
    cases r with
    | error e => exact .finish nofun
    | ok id => exact .note (.finish fun _ => ⟨id, rfl⟩)

/-- The handlers of the worker are those of its three types of messages. -/
theorem find?_registry {now : Timestamp} {p : Publisher} {name : String} {b : Binding}
    (registered : (registry now p).find? name = some b) :
    name = "DomainRegistered" ∧ b = .ofHandler (publishCompletion p) ∨
      name ≠ "DomainRegistered" ∧
        (b = .ofHandler logStatus ∨ b = .ofHandler (logCertificate now)) := by
  have found : (registry now p).find? name =
      if "CertificateIssued" = name then some (.ofHandler (logCertificate now))
      else if "OrderStatusUpdate" = name then some (.ofHandler logStatus)
      else if "DomainRegistered" = name then some (.ofHandler (publishCompletion p))
      else none := by
    simp only [registry, Registry.register, Registry.add, Registry.find?,
      Dictionary.find?_insert]
    rfl
  rw [found] at registered
  split at registered
  · next type =>
    cases registered
    exact .inr ⟨type ▸ by decide, .inr rfl⟩
  · split at registered
    · next type =>
      cases registered
      exact .inr ⟨type ▸ by decide, .inl rfl⟩
    · split at registered
      · next type =>
        cases registered
        exact .inl ⟨type.symm, rfl⟩
      · cases registered

theorem message_of_start {M : Type} [Message M] {h : Handler M} {ctx : Context} {e : Envelope}
    {first : Activity} (started : (Binding.ofHandler h).start ctx e = .ok first) :
    ∃ m, e.message M = .ok m ∧ first = h ctx m := by
  cases read : e.message M with
  | error f =>
    simp only [Binding.ofHandler, read] at started
    cases started
  | ok m =>
    simp only [Binding.ofHandler, read] at started
    cases started
    exact ⟨m, rfl, rfl⟩

/-! ### The progress of a handler -/

/-- What a handler of the worker, called for an envelope, has sent and may still do. -/
inductive Progress (p : Publisher) (e : Envelope) : List Posting → Activity → Prop
  /-- The envelope is not that of a registration. -/
  | other {a} (type : e.typeName ≠ "DomainRegistered") (quiet : a.Quiet fun _ => True) :
      Progress p e [] a
  | before {event a} (registers : e.Registers event)
      (publishes : a.Publishes p.queue (·.Completes event)) : Progress p e [] a
  | after {event m r a} (registers : e.Registers event) (completes : m.Completes event)
      (quiet : a.Quiet fun o => o = .ok → ∃ id, r = .ok id) :
      Progress p e [⟨p.queue, m, r⟩] a

variable {p : Publisher} {e : Envelope}

/-- A handler of the worker begins without having sent anything. -/
theorem progress_of_start {now : Timestamp} {b : Binding} {ctx : Context} {first : Activity}
    (registered : (registry now p).find? e.typeName = some b)
    (started : b.start ctx e = .ok first) : Progress p e [] first := by
  rcases find?_registry registered with ⟨type, rfl⟩ | ⟨type, rfl | rfl⟩
  · obtain ⟨event, read, rfl⟩ := message_of_start started
    exact .before ⟨type, read⟩ (publishes_publishCompletion p ctx event)
  · obtain ⟨update, -, rfl⟩ := message_of_start started
    exact .other type (.note (.finish trivial))
  · obtain ⟨issued, -, rfl⟩ := message_of_start started
    exact .other type (.note (.finish trivial))

namespace Progress

variable {sends : List Posting}

/-- A step that sends nothing, and after which no more may be sent, does not change the progress. -/
theorem onward {a a' : Activity} (h : Progress p e sends a)
    (quiet : ∀ ends, a.Quiet ends → a'.Quiet ends)
    (publishes : ∀ queue wanted, a.Publishes queue wanted → a'.Publishes queue wanted) :
    Progress p e sends a' := by
  cases h with
  | other type still => exact .other type (quiet _ still)
  | before registers ahead => exact .before registers (publishes _ _ ahead)
  | after registers completes still => exact .after registers completes (quiet _ still)

theorem sleep {ms : Nat} {next : Activity} (h : Progress p e sends (.sleep ms next)) :
    Progress p e sends next := by
  refine h.onward (fun ends quiet => ?_) fun queue wanted publishes => ?_
  · cases quiet with
    | sleep quiet => exact quiet
  · cases publishes with
    | sleep publishes => exact publishes

theorem note {entry : Log.Entry} {next : Activity} (h : Progress p e sends (.note entry next)) :
    Progress p e sends next := by
  refine h.onward (fun ends quiet => ?_) fun queue wanted publishes => ?_
  · cases quiet with
    | note quiet => exact quiet
  · cases publishes with
    | note publishes => exact publishes

theorem draw {next : String → Activity} (h : Progress p e sends (.draw next)) (id : String) :
    Progress p e sends (next id) := by
  refine h.onward (fun ends quiet => ?_) fun queue wanted publishes => ?_
  · cases quiet with
    | draw quiet => exact quiet id
  · cases publishes with
    | draw publishes => exact publishes id

/-- A handler that is about to send has sent nothing, and sends the completion of the order. -/
theorem of_send {q : Identity} {m : Outbound} {next : Except QueueError MessageId → Activity}
    (h : Progress p e sends (.send q m next)) :
    sends = [] ∧ q = p.queue ∧ ∃ event, e.Registers event ∧ m.Completes event ∧
      ∀ r, (next r).Quiet fun o => o = .ok → ∃ id, r = .ok id := by
  cases h with
  | other type quiet => nomatch quiet
  | @before event _ registers publishes =>
    cases publishes with
    | send right rest => exact ⟨rfl, rfl, event, registers, right, rest⟩
  | after registers completes quiet => nomatch quiet

theorem send {q : Identity} {m : Outbound} {next : Except QueueError MessageId → Activity}
    (h : Progress p e sends (.send q m next)) (r : Except QueueError MessageId) :
    Progress p e (sends ++ [⟨q, m, r⟩]) (next r) := by
  obtain ⟨rfl, rfl, event, registers, completes, rest⟩ := h.of_send
  exact .after registers completes (rest r)

/-- A handler of a registration that is about to end well has sent the completion of the order, and
it has been accepted. -/
theorem of_finish (h : Progress p e sends (.finish .ok)) (type : e.typeName = "DomainRegistered") :
    ∃ event m id, e.Registers event ∧ m.Completes event ∧ sends = [⟨p.queue, m, .ok id⟩] := by
  cases h with
  | other other quiet => exact absurd type other
  | before registers publishes =>
    cases publishes with
    | finish unwell => exact absurd rfl unwell
  | @after event m r _ registers completes quiet =>
    cases quiet with
    | finish right =>
      obtain ⟨id, rfl⟩ := right rfl
      exact ⟨event, m, id, registers, completes, rfl⟩

/-- A handler that has been refused does not end well. -/
theorem not_refused (h : Progress p e sends (.finish .ok)) {q : Identity} {m : Outbound}
    (error : QueueError) : ⟨q, m, .error error⟩ ∉ sends := by
  intro refused
  cases h with
  | other | before => nomatch refused
  | after registers completes quiet =>
    cases quiet with
    | finish right =>
      obtain ⟨id, rfl⟩ := right rfl
      cases List.mem_singleton.1 refused

/-- What a handler sends on its way is its progress. -/
theorem leads {first a : Activity} {deeds : List Event} (h : Progress p e [] first)
    (leads : first.Leads e deeds a) : Progress p e (deeds.filterMap Event.posting?) a := by
  induction leads with
  | refl => exact h
  | sleep leads ih => exact ih.sleep
  | @note deeds entry next leads ih =>
    have nothing : [Event.noted e entry].filterMap Event.posting? = [] := rfl
    rw [List.filterMap_append, nothing, List.append_nil]
    exact ih.note
  | draw id leads ih => exact ih.draw id
  | send r leads ih =>
    rw [List.filterMap_append]
    exact ih.send r

end Progress

end Lifecycle

end Courier
