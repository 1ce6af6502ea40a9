import Courier.Proofs.Lifecycle.Handlers
import Courier.Proofs.System.Success

/-!
# Registered domains complete their orders

A worker consumes events and publishes to a queue, which may be the one that it consumes from. It
acknowledges a registration only after the completion of the order has been accepted, so no
registration is removed without. What its handlers send for one delivery is their progress there,
and no other delivery has the same receipt. The messages that they create are therefore no more than
the deliveries of registrations, also when the worker receives them itself.

## Main definitions

* `System.Workers`: all consumers are those of workers.
* `System.postings`: what handlers have sent, under the receipts of their deliveries.
* `System.registrations`: the deliveries of registrations.
* `System.created`: the messages that runs store.

## Main results

* `System.Reached.postings_nodup`: a handler sends at most once for a delivery.
* `System.Reached.completed_of_removed`: a registration is removed only after the completion of its
  order has been accepted.
* `System.Reached.unacknowledged_of_refused`: after a refusal the delivery is not acknowledged.
* `System.completes_orders`: registered domains complete their orders.
-/

namespace Courier

/-! ### Steps of runs -/

/-- A handler sends with a step of its worker, and nothing else is observed of that step. -/
theorem Pipeline.Moves.handling_of_sent {c : Consumer} {u : Unsettled} {p : Pipeline}
    {a : Action} {x : Transition} {e : Envelope} {q : Identity} {m : Outbound}
    {r : Except QueueError MessageId} (h : Moves c u p a x) (mem : .sent e q m r ∈ x.events) :
    x.events = [.sent e q m r] ∧ ∃ (w : Nat) (next : Except QueueError MessageId → Activity),
      p.workers[w]? = some (.handling e (.send q m next)) := by
  rcases h.of_envelope mem rfl with
    ⟨-, -, -, -, eq⟩ | eq | ⟨w, e', s, s', at_, step⟩ | ⟨w, e', s, events, at_, step, events_eq⟩
  · cases eq
  · cases eq
  · generalize x.events = events at mem step ⊢
    cases step with
    | send q' m' r' next =>
      obtain ⟨rfl, rfl, rfl, rfl⟩ : e = e' ∧ q = q' ∧ m = m' ∧ r = r' := by simpa using mem
      exact ⟨rfl, w, next, at_⟩
    | _ => simp at mem
  · rw [events_eq] at mem
    cases step with
    | _ => simp at mem

/-- The message that an incident stores, in any queue. -/
def Incident.arrival? : Incident → Option Stored
  | .stored _ m => some m
  | _ => none

/-- Only a send stores a message. -/
theorem Broker.arrivals_incidents (b : Broker) (now : Nat) {call : Call}
    (h : ∀ q m, call ≠ .send q m) : (b.incidents now call).filterMap (·.arrival?) = [] := by
  refine List.filterMap_eq_nil_iff.2 fun i mem => ?_
  cases call with
  | send q m => exact absurd rfl (h q m)
  | check q o =>
    simp only [incidents] at mem
    split at mem
    · obtain ⟨m', -, rfl⟩ := List.mem_map.1 mem
      rfl
    · exact absurd mem List.not_mem_nil
  | delete q receipt =>
    simp only [incidents] at mem
    split at mem
    · obtain ⟨m', -, rfl⟩ := List.mem_map.1 mem
      rfl
    · exact absurd mem List.not_mem_nil
  | _ => exact absurd mem List.not_mem_nil

/-- A run makes a send call for a handler, which is told the answer. -/
theorem Run.Makes.sent_of_call {c : Consumer} {now : Nat} {b : Broker} {u : Unsettled} {r : Run}
    {move : Move} {effect : Effect} (h : r.Makes c now b u move effect) {q : Identity}
    {m : Outbound} (call : r.call? c move = some (.send q m)) :
    ∃ e, effect.events = [.sent e q m (b.send now q m).1] := by
  cases h with
  | @send w e q' m' next x at_ step =>
    simp only [Run.call?, at_, Option.some.injEq, Broker.Call.send.injEq] at call
    obtain ⟨rfl, rfl⟩ := call
    refine ⟨e, ?_⟩
    have moves := Pipeline.moves_of_step step
    clear step
    cases moves with
    | release at' step => cases step
    | advance at' step =>
      cases step with
      | send q m r next' =>
        rw [at_] at at'
        cases at'
        rfl
  | delete at_ step =>
    simp only [Run.call?, at_] at call
    cases call
  | _ => cases call

/-- What a handler of the worker has sent for a delivery is its progress. -/
theorem Delivery.Handled.progress {c : Consumer} {d : Delivery} {e : Envelope} {a : Activity}
    {later : List Event} {now : Timestamp} {p : Publisher} (h : d.Handled c e a later)
    (worker : c.registry = Lifecycle.registry now p)
    (silent : later.filterMap Event.posting? = []) :
    Lifecycle.Progress p e (d.events.filterMap Event.posting?) a := by
  obtain ⟨b, cancelled, first, deeds, registered, started, leads, events_eq⟩ := h.called
  rw [worker] at registered
  have progress := (Lifecycle.progress_of_start registered started).leads leads
  have sends : d.events.filterMap Event.posting? = deeds.filterMap Event.posting? := by
    rw [events_eq, List.filterMap_append, List.filterMap_append, silent, List.append_nil]
    rfl
  rwa [sends]

theorem Envelope.Aftermath.posting?_eq_nil {e : Envelope} {a : Activity} {later : List Event}
    (h : e.Aftermath a later) : later.filterMap Event.posting? = [] := by
  cases h <;> rfl

theorem Envelope.Aftermath.of_returned {e e' : Envelope} {a : Activity} {later : List Event}
    (h : e.Aftermath a later) (mem : .returned e' .ok ∈ later) : a = .finish .ok := by
  cases h with
  | succeeded | unacknowledged | deleting | unanswered | answered => rfl
  | _ => simp at mem

/-- Whether a delivery is that of a registration. -/
def Received.isRegistration (r : Received) : Bool :=
  match Envelope.ofReceived r with
  | .ok e => e.typeName = "DomainRegistered"
  | .error _ => false

theorem Received.isRegistration_of_typeName {r : Received} {e : Envelope}
    (accepted : Envelope.ofReceived r = .ok e) (type : e.typeName = "DomainRegistered") :
    r.isRegistration = true := by
  simp only [isRegistration, accepted, type, decide_true]

/-- An envelope has a payload and its type from the attributes of its delivery. -/
theorem Envelope.exists_payload {r : Received} {e : Envelope}
    (accepted : Envelope.ofReceived r = .ok e) :
    payloadOf r.attributes = .ok e.payload ∧
      typeNameOf r.attributes e.payload = .ok e.typeName := by
  obtain ⟨payload, body, accepted⟩ := of_bind_eq_ok accepted
  obtain ⟨name, type, accepted⟩ := of_bind_eq_ok accepted
  obtain ⟨headers, -, accepted⟩ := of_bind_eq_ok accepted
  cases accepted
  exact ⟨body, type⟩

theorem Envelope.readFrame_of_message {M : Type} [Message M] {e : Envelope} {m : M}
    (h : e.message M = .ok m) : readFrame M e.payload = .ok m := by
  cases frame : readFrame M e.payload with
  | error f =>
    rw [Envelope.message, frame] at h
    cases h
  | ok m' =>
    rw [Envelope.message, frame] at h
    cases h
    rfl

/-- The payload of a message in a queue, if it has one, is of the given type. -/
def Stored.OfType (m : Stored) (name : String) : Prop :=
  ∀ payload, payloadOf m.attributes = .ok payload → typeNameOf m.attributes payload = .ok name

/-- The payload of a message in a queue tells that a domain has been registered. -/
def Stored.Announces (m : Stored) (event : DomainRegistered) : Prop :=
  ∃ payload, payloadOf m.attributes = .ok payload ∧
    readFrame DomainRegistered payload = .ok event

namespace System

variable {consumers : List Consumer} {history : List Occurrence} {sys sys' : System}
  {a : Action} {events : List Event} {s k : Nat} {e : Envelope} {q : Identity} {m : Outbound}
  {r : Except QueueError MessageId}

/-- The step with which a handler sends is one of its worker. -/
theorem handling_of_sent (hx : sys.step a = some (sys', events))
    (mem : .event s k (.sent e q m r) ∈ sys.occurrences a events) :
    events = [.sent e q m r] ∧ ∃ move sub run, ∃ (w : Nat) (next : _ → Activity),
      a = .move s k move ∧ sys.subscribers[s]? = some sub ∧ sub.runs[k]? = some run ∧
      run.pipeline.workers[w]? = some (.handling e (.send q m next)) := by
  obtain ⟨move, sub, run, effect, rfl, hs, hk, makes, rfl, -, shown⟩ := move_of_event hx mem
  obtain ⟨a, x, moves, same, -⟩ := makes.of_envelope shown rfl
  obtain ⟨only, w, next, at_⟩ := moves.handling_of_sent (same ▸ shown)
  exact ⟨same ▸ only, move, sub, run, w, next, rfl, hs, hk, at_⟩

/-- What is observed of an envelope belongs to a delivery of its run. -/
theorem Reached.delivery_of_event (h : Reached consumers history sys) {ev : Event}
    (mem : .event s k ev ∈ history) (bears : ev.envelope? = some e) :
    ∃ sub run t d, sys.subscribers[s]? = some sub ∧
      Pipeline.Tracked sub.consumer t (Run.pipeline run) ∧ t.events = eventsOf s k history ∧
      d ∈ t.deliveries ∧ ev ∈ d.events ∧ Envelope.ofReceived d.message = .ok e := by
  obtain ⟨sub, run, hs, hk⟩ := h.run_of_event mem
  obtain ⟨t, tracked, events_eq⟩ := h.follows.tracked s sub k run hs hk
  obtain ⟨d, hd, shown, accepted⟩ := delivery_of_envelope tracked events_eq mem bears
  exact ⟨sub, run, t, d, hs, tracked, events_eq, hd, shown, accepted⟩

/-! ### What the handlers of the worker have sent -/

/-- What a handler sends with an entry, with the receipt of its delivery. -/
def Occurrence.posting? : Occurrence → Option (Receipt × Posting)
  | .event _ _ (.sent e q m r) => some (e.receipt, ⟨q, m, r⟩)
  | _ => none

/-- What handlers have sent in a history. -/
def postings (history : List Occurrence) : List (Receipt × Posting) :=
  history.filterMap (·.posting?)

theorem postings_append (history history' : List Occurrence) :
    postings (history ++ history') = postings history ++ postings history' :=
  List.filterMap_append

theorem mem_postings {receipt : Receipt} {x : Posting} : (receipt, x) ∈ postings history ↔
    ∃ s k e, e.receipt = receipt ∧
      .event s k (.sent e x.queue x.message x.answer) ∈ history := by
  simp only [postings, List.mem_filterMap]
  constructor
  · rintro ⟨o, mem, eq⟩
    unfold Occurrence.posting? at eq
    split at eq
    · cases eq
      exact ⟨_, _, _, rfl, mem⟩
    · cases eq
  · rintro ⟨s, k, e, rfl, mem⟩
    exact ⟨_, mem, rfl⟩

/-- All consumers are those of workers, each with a publisher. -/
def Workers (consumers : List Consumer) (publisher : Nat → Publisher) : Prop :=
  ∀ s c, consumers[s]? = some c → ∃ now, c.registry = Lifecycle.registry now (publisher s)

variable {publisher : Nat → Publisher}

/-- The delivery `d`, which has come from the queue at `url`, is in the hand of a run whose handler
has come to an activity. -/
structure Attends (history : List Occurrence) (s k : Nat) (url : String) (p : Publisher)
    (e : Envelope) (activity : Activity) (d : Delivery) : Prop where
  delivered : d.message ∈ deliveredAt url (incidentsOf history)
  accepted : Envelope.ofReceived d.message = .ok e
  progress : Lifecycle.Progress p e (d.events.filterMap Event.posting?) activity
  observed : ∀ ev ∈ d.events, .event s k ev ∈ history
  bears : ∀ ev ∈ d.events, ∀ e', ev.envelope? = some e' → e' = e
  /-- What bears the receipt of the delivery is about it. -/
  own : ∀ s' k' ev e', .event s' k' ev ∈ history → ev.envelope? = some e' →
    e'.receipt = e.receipt → ev ∈ d.events

/-- A handler at work has a delivery in its hand. -/
theorem Reached.attends (h : Reached consumers history sys) (workers : Workers consumers publisher)
    {sub : Subscriber} {run : Run} {w : Nat} {activity : Activity}
    (hs : sys.subscribers[s]? = some sub) (hk : sub.runs[k]? = some run)
    (at_ : run.pipeline.workers[w]? = some (.handling e activity)) :
    ∃ d, Attends history s k sub.consumer.queue.url (publisher s) e activity d := by
  obtain ⟨t, tracked, events_eq⟩ := h.follows.tracked s sub k run hs hk
  obtain ⟨d, hw, handled⟩ := tracked.matches.carried at_ rfl
  have hd : d ∈ t.deliveries := Track.mem_deliveries_of_worker hw
  obtain ⟨now, worker⟩ := workers s sub.consumer (h.consumer hs)
  have receipt := (Envelope.ofReceived_eq_ok handled.accepted).2.1
  refine ⟨d, ?_, handled.accepted, handled.progress worker rfl, ?_, ?_, ?_⟩
  · exact h.delivered_of_tracked hs tracked events_eq _ (tracked.mem_received hd)
  · intro ev mem
    rw [← mem_eventsOf, ← events_eq]
    exact tracked.mem_events hd mem
  · intro ev mem e' bears
    have accepted := (tracked.course d hd).accepted mem bears
    exact Except.ok.inj (accepted.symm.trans handled.accepted)
  · intro s' k' ev e' mem bears same
    exact (h.event_of_receipt tracked events_eq hd mem bears (same.trans receipt)).2.2

/-- What a handler has sent was the completion of the order of its registration, and was sent to the
queue of its publisher. -/
theorem Reached.registration_of_sent (h : Reached consumers history sys)
    (workers : Workers consumers publisher) (mem : .event s k (.sent e q m r) ∈ history) :
    ∃ c d event, consumers[s]? = some c ∧ q = (publisher s).queue ∧
      d ∈ deliveredAt c.queue.url (incidentsOf history) ∧ Envelope.ofReceived d = .ok e ∧
      e.Registers event ∧ m.Completes event := by
  obtain ⟨before, after, rfl⟩ := List.append_of_mem mem
  obtain ⟨past, sys₀, a, sys₁, events, first, last, reached, hx, occ, rfl, -⟩ := h.split
  have shown : .event s k (.sent e q m r) ∈ sys₀.occurrences a events := by simp [occ]
  obtain ⟨-, move, sub, run, w, next, rfl, hs, hk, at_⟩ := handling_of_sent hx shown
  obtain ⟨d, attends⟩ := reached.attends workers hs hk at_
  obtain ⟨-, own, event, registers, completes, -⟩ := attends.progress.of_send
  refine ⟨sub.consumer, d.message, event, reached.consumer hs, own, ?_, attends.accepted,
    registers, completes⟩
  rw [List.append_assoc, incidentsOf_append, deliveredAt_append]
  exact List.mem_append_left _ attends.delivered

/-- Handlers send at most once for a delivery. -/
theorem Reached.postings_nodup (h : Reached consumers history sys)
    (workers : Workers consumers publisher) : ((postings history).map (·.1)).Nodup := by
  induction h with
  | start => exact List.nodup_nil
  | @step history sys a sys' events h hx ih =>
    rw [postings_append]
    by_cases silent : postings (sys.occurrences a events) = []
    · rwa [silent, List.append_nil]
    · obtain ⟨⟨receipt, x⟩, mem⟩ := List.exists_mem_of_ne_nil _ silent
      obtain ⟨s, k, e, rfl, shown⟩ := mem_postings.1 mem
      obtain ⟨rfl, move, sub, run, w, next, rfl, hs, hk, at_⟩ := handling_of_sent hx shown
      have once : postings (sys.occurrences (.move s k move)
          [.sent e x.queue x.message x.answer]) = [(e.receipt, x)] := by
        simp [postings, occurrences, Action.observed, List.filterMap_map, Occurrence.posting?]
      rw [once, List.map_append, List.nodup_append]
      refine ⟨ih, List.nodup_singleton _, fun receipt old receipt' new same => ?_⟩
      -- What was sent under the receipt before, the handler would have sent itself.
      obtain rfl := List.mem_singleton.1 new
      obtain ⟨⟨_, y⟩, sent, rfl⟩ := List.mem_map.1 old
      obtain ⟨s', k', e', own, shown'⟩ := mem_postings.1 sent
      obtain ⟨d, attends⟩ := h.attends workers hs hk at_
      have inside := attends.own _ _ _ e' shown' rfl (own.trans same)
      have none_ := attends.progress.of_send.1
      rw [List.filterMap_eq_nil_iff] at none_
      cases none_ _ inside

/-- The deliveries of registrations in a history. -/
def registrations (history : List Occurrence) : List Received :=
  (deliveries (incidentsOf history)).filter (·.isRegistration)

theorem Reached.postings_le (h : Reached consumers history sys)
    (workers : Workers consumers publisher) :
    (postings history).length ≤ (registrations history).length := by
  have inside : (postings history).map (·.1) ⊆ (registrations history).map (·.receipt) := by
    intro receipt mem
    obtain ⟨⟨_, x⟩, sent, rfl⟩ := List.mem_map.1 mem
    obtain ⟨s, k, e, rfl, shown⟩ := mem_postings.1 sent
    obtain ⟨c, d, event, -, -, delivered, accepted, registers, -⟩ :=
      h.registration_of_sent workers shown
    have registration := Received.isRegistration_of_typeName accepted registers.typeName
    have kept : d ∈ registrations history :=
      List.mem_filter.2 ⟨mem_deliveries.2 ⟨_, delivered⟩, registration⟩
    exact List.mem_map.2 ⟨d, kept, (Envelope.ofReceived_eq_ok accepted).2.1.symm⟩
  simpa using ((h.postings_nodup workers).subperm inside).length_le

/-- Before the handler of a registration has ended well, the completion of the order has been
accepted. -/
theorem Reached.completed_of_returned {before after : List Occurrence}
    (h : Reached consumers (before ++ .event s k (.returned e .ok) :: after) sys)
    (workers : Workers consumers publisher) (type : e.typeName = "DomainRegistered") :
    ∃ event out id, e.Registers event ∧ out.Completes event ∧
      .event s k (.sent e (publisher s).queue out (.ok id)) ∈ before := by
  obtain ⟨past, sys₀, a, sys₁, events, first, last, reached, hx, occ, rfl, -⟩ := h.split
  have shown : .event s k (.returned e .ok) ∈ sys₀.occurrences a events := by simp [occ]
  obtain ⟨-, sub, run, w, hs, hk, at_⟩ := handling_of_returned hx shown
  obtain ⟨d, attends⟩ := reached.attends workers hs hk at_
  obtain ⟨event, out, id, registers, completes, sends⟩ := attends.progress.of_finish type
  have sent : ⟨(publisher s).queue, out, .ok id⟩ ∈ d.events.filterMap Event.posting? := by
    rw [sends]
    exact List.mem_singleton_self _
  obtain ⟨ev, inside, posted⟩ := List.mem_filterMap.1 sent
  refine ⟨event, out, id, registers, completes, List.mem_append_left _ ?_⟩
  cases ev with
  | sent e' q m r =>
    cases posted
    obtain rfl := attends.bears _ inside e' rfl
    exact attends.observed _ inside
  | _ => cases posted

/-- A registration is removed only after the completion of its order has been accepted. -/
theorem Reached.completed_of_removed {before after : List Occurrence} {url : String}
    {receipt : Receipt} {stored : Stored}
    (h : Reached consumers (before ++ .incident (.removed url receipt stored.id) :: after) sys)
    (workers : Workers consumers publisher)
    (there : .incident (.stored url stored) ∈
      before ++ .incident (.removed url receipt stored.id) :: after)
    (registration : stored.OfType "DomainRegistered") :
    ∃ s k c e event out id, consumers[s]? = some c ∧ c.queue.url = url ∧ e.id = stored.id ∧
      e.receipt = receipt ∧ stored.Announces event ∧ out.Completes event ∧
      .event s k (.sent e (publisher s).queue out (.ok id)) ∈ before := by
  obtain ⟨-, s, k, c, e, rest, at_, queue, -, own, bears, -, returned⟩ := h.rightful
  have whole : .event s k (.returned e .ok) ∈
      before ++ .incident (.removed url receipt stored.id) :: after :=
    List.mem_append_left _ returned
  -- The handler was called for a delivery of the message.
  obtain ⟨sub, run, t, d, hs, tracked, events_eq, hd, -, accepted⟩ := h.delivery_of_event whole rfl
  have delivered := h.delivered_of_tracked hs tracked events_eq _ (tracked.mem_received hd)
  have same : d.message.attributes = stored.attributes :=
    h.broker.attributes_of_stored (mem_storedAt.2 (mem_incidentsOf.2 there))
      (mem_deliveries.2 ⟨_, delivered⟩) ((Envelope.ofReceived_eq_ok accepted).1.symm.trans own)
  obtain ⟨body, type⟩ := Envelope.exists_payload accepted
  rw [same] at body type
  have named : e.typeName = "DomainRegistered" :=
    Except.ok.inj (type.symm.trans (registration _ body))
  obtain ⟨b₁, b₂, rfl⟩ := List.append_of_mem returned
  rw [List.append_assoc, List.cons_append] at h
  obtain ⟨event, out, id, registers, completes, sent⟩ := h.completed_of_returned workers named
  exact ⟨s, k, c, e, event, out, id, at_, queue, own, bears,
    ⟨e.payload, body, Envelope.readFrame_of_message registers.message⟩, completes,
    List.mem_append_left _ sent⟩

/-- A handler whose completion was refused does not end well. -/
theorem Reached.not_returned_of_refused (h : Reached consumers history sys)
    (workers : Workers consumers publisher) {error : QueueError}
    (refused : .event s k (.sent e q m (.error error)) ∈ history) {s' k' : Nat} {e' : Envelope}
    (same : e'.receipt = e.receipt) : .event s' k' (.returned e' .ok) ∉ history := by
  intro returned
  obtain ⟨sub, run, t, d, hs, tracked, events_eq, hd, shown, accepted⟩ :=
    h.delivery_of_event returned rfl
  have receipt := (Envelope.ofReceived_eq_ok accepted).2.1
  have inside :=
    (h.event_of_receipt tracked events_eq hd refused rfl (same.symm.trans receipt)).2.2
  obtain ⟨activity, later, handled, after⟩ := (tracked.course d hd).handled_of_returned shown
  obtain ⟨now, worker⟩ := workers s' sub.consumer (h.consumer hs)
  have progress := handled.progress worker after.posting?_eq_nil
  obtain rfl := after.of_returned (handled.returned_later shown)
  exact progress.not_refused error (List.mem_filterMap.2 ⟨_, inside, rfl⟩)

/-- A delivery is deleted only by a worker whose handler has ended well. -/
theorem Reached.returned_of_deleteCalled (h : Reached consumers history sys)
    (called : .event s k (.deleteCalled e) ∈ history) :
    .event s k (.returned e .ok) ∈ history := by
  obtain ⟨sub, run, t, d, -, tracked, events_eq, hd, shown, accepted⟩ :=
    h.delivery_of_event called rfl
  obtain ⟨e', rest, handled, -⟩ := (tracked.course d hd).handled_of_deleteCalled shown
  obtain rfl : e = e' := Except.ok.inj (accepted.symm.trans handled.accepted)
  obtain ⟨b, cancelled, first, deeds, -, -, -, life⟩ := handled.called
  have returned : .returned e .ok ∈ d.events := by simp [life]
  rw [← mem_eventsOf, ← events_eq]
  exact tracked.mem_events hd returned

/-- When the completion of an order is refused, the delivery is not acknowledged. -/
theorem Reached.unacknowledged_of_refused (h : Reached consumers history sys)
    (workers : Workers consumers publisher) {error : QueueError}
    (refused : .event s k (.sent e q m (.error error)) ∈ history) :
    (∀ s' k' e', e'.receipt = e.receipt → .event s' k' (.deleteCalled e') ∉ history) ∧
      ∀ url id, .incident (.removed url e.receipt id) ∉ history := by
  constructor
  · intro s' k' e' same called
    exact h.not_returned_of_refused workers refused same (h.returned_of_deleteCalled called)
  · intro url id removed
    obtain ⟨before, after, split⟩ := List.append_of_mem removed
    have rightful := (split ▸ h).rightful
    obtain ⟨-, s', k', c, e', rest, -, -, -, -, same, -, returned⟩ := rightful
    have returned : .event s' k' (.returned e' .ok) ∈ history :=
      split ▸ List.mem_append_left _ returned
    exact h.not_returned_of_refused workers refused same returned

/-! ### What runs have stored -/

/-- The messages that a step of a run stores. -/
def createdBy (sys : System) : Action → List Stored
  | .move s k move =>
    (sys.broker.incidentsOfSome sys.now (sys.call? (.move s k move))).filterMap (·.arrival?)
  | _ => []

/-- The messages that runs store in the course of the given steps. -/
def created (sys : System) : List Action → List Stored
  | [] => []
  | a :: as => sys.createdBy a ++ (sys.step a).elim [] fun x => created x.1 as

/-- A run stores a message only if one of its handlers sends it. -/
theorem createdBy_eq (hx : sys.step a = some (sys', events)) :
    sys.createdBy a = [] ∨ ∃ s k e q m id,
      sys.occurrences a events = [.incident (.stored q.url (m.toStored id sys.now)),
        .event s k (.sent e q m (.ok id))] ∧
      sys.createdBy a = [m.toStored id sys.now] := by
  cases a with
  | move s k move =>
    obtain ⟨sub, run, effect, hs, hk, makes, rfl, -⟩ := makes_of_step hx
    rw [createdBy, occurrences, call?_move hs hk]
    cases called : run.call? sub.consumer move with
    | none => exact .inl rfl
    | some call =>
      rw [Broker.incidentsOfSome, Option.elim]
      cases call with
      | send q m =>
        obtain ⟨e, told⟩ := makes.sent_of_call called
        cases sys.broker.send_outcome sys.now q m with
        | refused answer incidents lookup | repeated there old answer incidents lookup =>
          rw [incidents]
          exact .inl rfl
        | stored there answer incidents lookup =>
          rw [incidents, told, answer]
          exact .inr ⟨s, k, e, q, m, _, rfl, rfl⟩
      | _ => exact .inl (sys.broker.arrivals_incidents sys.now fun _ _ same => by cases same)
  | _ => exact .inl rfl

/-- Runs store at most as many messages as their handlers send, and store what these send. -/
theorem created_of_replay {as : List Action} {last : List Occurrence × System}
    (made : replay history sys as = some last) :
    ∃ new, last.1 = history ++ new ∧ (created sys as).length ≤ (postings new).length ∧
      ∀ stored ∈ created sys as, ∃ s k e q m,
        .event s k (.sent e q m (.ok stored.id)) ∈ new ∧ stored.attributes = m.attributes := by
  -- A run stores nothing without a send that is observed with the same step.
  induction as generalizing history sys with
  | nil =>
    cases made
    exact ⟨[], (List.append_nil _).symm, Nat.le_refl _, nofun⟩
  | cons a as ih =>
    obtain ⟨⟨sys', events⟩, hx, made⟩ := Option.bind_eq_some_iff.1 made
    obtain ⟨new, last_eq, fewer, sent⟩ := ih made
    refine ⟨sys.occurrences a events ++ new, by rw [last_eq, List.append_assoc], ?_⟩
    rw [created, hx, Option.elim, postings_append, List.length_append, List.length_append]
    rcases createdBy_eq hx with none_ | ⟨s, k, e, q, m, id, occurred, one⟩
    · rw [none_, List.length_nil, Nat.zero_add]
      refine ⟨Nat.le_add_left_of_le fewer, fun stored mem => ?_⟩
      obtain ⟨s, k, e, q, m, mem, same⟩ := sent stored mem
      exact ⟨s, k, e, q, m, List.mem_append_right _ mem, same⟩
    · rw [one, occurred]
      refine ⟨Nat.add_le_add (Nat.le_refl 1) fewer, fun stored mem => ?_⟩
      rcases List.mem_cons.1 mem with rfl | mem
      · exact ⟨s, k, e, q, m, by simp [Outbound.toStored], rfl⟩
      · obtain ⟨s, k, e, q, m, mem, same⟩ := sent stored mem
        exact ⟨s, k, e, q, m, List.mem_append_right _ mem, same⟩

/-- A registered domain completes its order. Whatever the backend refuses, delivers again or stops,
and wherever the workers publish: a registration is removed only after the completion of its order
has been accepted; a handler sends nothing but that, and once for a delivery; so the runs store at
most as many messages as registrations are delivered; and when a completion is refused, its delivery
is not acknowledged. -/
theorem completes_orders (workers : Workers consumers publisher) {as : List Action}
    (made : replay [] (initial consumers) as = some (history, sys)) :
    (∀ before url receipt stored after,
      history = before ++ .incident (.removed url receipt stored.id) :: after →
      .incident (.stored url stored) ∈ history → stored.OfType "DomainRegistered" →
      ∃ s k c e event out id, consumers[s]? = some c ∧ c.queue.url = url ∧ e.id = stored.id ∧
        e.receipt = receipt ∧ stored.Announces event ∧ out.Completes event ∧
        .event s k (.sent e (publisher s).queue out (.ok id)) ∈ before) ∧
    (∀ s k e q m r, .event s k (.sent e q m r) ∈ history →
      ∃ c d event, consumers[s]? = some c ∧ q = (publisher s).queue ∧
        d ∈ deliveredAt c.queue.url (incidentsOf history) ∧ Envelope.ofReceived d = .ok e ∧
        e.Registers event ∧ m.Completes event) ∧
    ((postings history).map (·.1)).Nodup ∧
    ((created (initial consumers) as).length ≤ (registrations history).length ∧
      ∀ stored ∈ created (initial consumers) as, ∃ s k e q m,
        .event s k (.sent e q m (.ok stored.id)) ∈ history ∧ stored.attributes = m.attributes) ∧
    ∀ s k e q m error, .event s k (.sent e q m (.error error)) ∈ history →
      (∀ s' k' e', e'.receipt = e.receipt → .event s' k' (.deleteCalled e') ∉ history) ∧
        ∀ url id, .incident (.removed url e.receipt id) ∉ history := by
  have reached : Reached consumers history sys := Reached.start.replay made
  refine ⟨?_, fun s k e q m r mem => reached.registration_of_sent workers mem,
    reached.postings_nodup workers, ?_,
    fun s k e q m error refused => reached.unacknowledged_of_refused workers refused⟩
  · rintro before url receipt stored after rfl there registration
    exact reached.completed_of_removed workers there registration
  · obtain ⟨new, history_eq, fewer, sent⟩ := created_of_replay made
    obtain rfl : history = new := history_eq
    exact ⟨Nat.le_trans fewer (reached.postings_le workers), sent⟩

end System

end Courier

/-! ### A worker that receives what it sends -/

namespace Courier

namespace Sample

/-- A queue for registrations and for the completions of their orders. -/
def ledger : Locator where
  name := ⟨"orders", by decide⟩

/-- A publisher to that queue. -/
def scribe : Publisher where
  settings := { queue := ledger.name }
  queue := ⟨ledger.name, ledger.address⟩

/-- A worker that publishes to the queue from which it consumes. -/
def office : Consumer where
  settings := { queue := ledger.name, workers := 1 }
  registry := Lifecycle.registry .epoch scribe
  queue := scribe.queue

theorem office_works : System.Workers [office] fun _ => scribe := by
  intro s c at_
  cases s with
  | zero => exact ⟨.epoch, congrArg Consumer.registry (Option.some.inj at_).symm⟩
  | succ s => cases at_

/-- A message with a registration. -/
def notice : Outbound :=
  (scribe.outbound (⟨"example.net", "o-7"⟩ : DomainRegistered) {} "n-1").toOption.get rfl

/-- The message as it is stored. -/
def purchase : Stored :=
  notice.toStored (Mint.drawMessageId {}).1 0

theorem purchase_ofType : purchase.OfType "DomainRegistered" :=
  fun _ _ => rfl

/-- The moves of a run that receives a message and calls its handler. -/
def pickUp : List Move :=
  [.beginReceive, .look, .internal .push, .internal (.takeRaw 0), .internal (.decode 0),
    .internal (.offer 0), .internal (.takeDecoded 0), .internal (.start 0),
    .internal (.proceed 0)]

/-- The moves of a run whose handler sends a message. -/
def reportBack : List Move :=
  [.draw 0, .send 0, .internal (.proceed 0)]

/-- The moves of a run whose handler ends well. -/
def strikeOff : List Move :=
  [.internal (.proceed 0), .internal (.callDelete 0), .delete 0]

/-- A registration is sent. The completion of its order is refused at the first delivery and
accepted at the second one, and then delivered to the worker itself. -/
def fulfilment : List System.Action :=
  [.create ledger, .send scribe.queue notice, .failNext .send 1, .start 0] ++
    (pickUp ++ reportBack).map (.move 0 0) ++ [.pass 30000] ++
    (pickUp ++ reportBack ++ strikeOff ++ pickUp ++ strikeOff).map (.move 0 0)

/-- Where these steps lead. -/
def fulfilled : List System.Occurrence × System :=
  (System.replay [] (.initial [office]) fulfilment).get rfl

theorem fulfilled_made : System.replay [] (.initial [office]) fulfilment = some fulfilled :=
  (Option.some_get _).symm

end Sample

namespace System

/-- The registration is delivered twice and removed after the completion, which is the only message
that the worker creates. -/
theorem completes_orders_of_fulfilment :
    (∃ receipt before after, Sample.fulfilled.1 = before ++
        .incident (.removed Sample.ledger.address receipt Sample.purchase.id) :: after ∧
      ∃ s k e event out id, Sample.purchase.Announces event ∧ out.Completes event ∧
        .event s k (.sent e Sample.scribe.queue out (.ok id)) ∈ before) ∧
    (∃ e q m error, .event 0 0 (.sent e q m (.error error)) ∈ Sample.fulfilled.1 ∧
      ∀ url id, .incident (.removed url e.receipt id) ∉ Sample.fulfilled.1) ∧
    (created (.initial [Sample.office]) Sample.fulfilment).length = 1 ∧
    (registrations Sample.fulfilled.1).length = 2 := by
  obtain ⟨removals, -, -, -, refusals⟩ :=
    completes_orders Sample.office_works Sample.fulfilled_made
  refine ⟨?_, ?_, by decide +kernel, by decide +kernel⟩
  · have stored : .incident (.stored Sample.ledger.address Sample.purchase) ∈ Sample.fulfilled.1 :=
      List.mem_of_getElem? (i := 0) rfl
    have removed : .incident (.removed Sample.ledger.address _ Sample.purchase.id) ∈
        Sample.fulfilled.1 := List.mem_of_getElem? (i := 22) rfl
    obtain ⟨before, after, split⟩ := List.append_of_mem removed
    obtain ⟨s, k, c, e, event, out, id, -, -, -, -, announces, completes, sent⟩ :=
      removals before _ _ _ after split stored Sample.purchase_ofType
    exact ⟨_, before, after, split, s, k, e, event, out, id, announces, completes, sent⟩
  · have refused : .event 0 0 (.sent _ _ _ (.error _)) ∈ Sample.fulfilled.1 :=
      List.mem_of_getElem? (i := 7) rfl
    exact ⟨_, _, _, _, refused, (refusals _ _ _ _ _ _ refused).2⟩

end System

end Courier
