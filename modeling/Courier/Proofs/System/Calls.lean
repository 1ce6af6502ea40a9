import Courier.Proofs.Broker.Receipts
import Courier.Proofs.System.Removal

/-!
# Calls of handlers

The broker gives every delivery a receipt of its own, a run receives every delivery once, and calls
the handler of what it has received at most once. So no two calls of handlers are for one delivery,
whichever runs of whichever consumers make them.

## Main definitions

* `System.calls`: the envelopes with which handlers were called in a history.

## Main results

* `System.Reached.calls_nodup`: no two calls are for one delivery.
-/

namespace Courier.System

/-- The envelope with which an entry calls a handler. -/
def Occurrence.call? : Occurrence → Option Envelope
  | .event _ _ (.started e) => some e
  | _ => none

/-- The envelopes with which handlers were called in a history, in order. -/
def calls (history : List Occurrence) : List Envelope :=
  history.filterMap (·.call?)

variable {consumers : List Consumer} {history : List Occurrence} {sys sys' : System}
  {a : Action} {events : List Event} {s k : Nat}

theorem calls_append (history history' : List Occurrence) :
    calls (history ++ history') = calls history ++ calls history' :=
  List.filterMap_append

theorem mem_calls {e : Envelope} :
    e ∈ calls history ↔ ∃ s k, .event s k (.started e) ∈ history := by
  simp only [calls, List.mem_filterMap]
  constructor
  · rintro ⟨o, mem, eq⟩
    unfold Occurrence.call? at eq
    split at eq
    · cases eq
      exact ⟨_, _, mem⟩
    · cases eq
  · rintro ⟨s, k, mem⟩
    exact ⟨_, mem, rfl⟩

theorem Reached.run_of_event (h : Reached consumers history sys) {ev : Event}
    (mem : .event s k ev ∈ history) :
    ∃ sub run, sys.subscribers[s]? = some sub ∧ sub.runs[k]? = some run := by
  by_contra none_
  have silent : eventsOf s k history = [] := by
    refine h.follows.absent s k fun sub hs => ?_
    by_contra more
    exact none_ ⟨sub, _, hs, List.getElem?_eq_getElem (Nat.lt_of_not_le more)⟩
  rw [← mem_eventsOf, silent] at mem
  nomatch mem

theorem Reached.receipts_nodup (h : Reached consumers history sys) :
    ((receivedIn history).map (·.2.receipt)).Nodup := by
  have receipts := h.broker.changes.ledger.deliveries_nodup
  rw [← h.received, List.map_map] at receipts
  exact receipts

theorem Reached.received_nodup (h : Reached consumers history sys) {c : Consumer} {t : Track}
    {p : Pipeline} (tracked : Pipeline.Tracked c t p)
    (events_eq : t.events = eventsOf s k history) : (t.received.map (·.receipt)).Nodup := by
  have own : (((receivedIn history).filter (·.1 = (s, k))).map (·.2.receipt)).Nodup :=
    h.receipts_nodup.sublist (List.filter_sublist.map _)
  rw [received_of_tracked tracked events_eq, List.map_map]
  exact own

theorem mem_receivedIn {c : Consumer} {t : Track} {p : Pipeline}
    (tracked : Pipeline.Tracked c t p) (events_eq : t.events = eventsOf s k history)
    {r : Received} (mem : r ∈ t.received) : ((s, k), r) ∈ receivedIn history := by
  rw [received_of_tracked tracked events_eq] at mem
  obtain ⟨⟨run, r⟩, hr, rfl⟩ := List.mem_map.1 mem
  obtain ⟨inside, own⟩ := List.mem_filter.1 hr
  have run_eq : run = (s, k) := of_decide_eq_true own
  exact run_eq ▸ inside

/-- A handler was called for a delivery of its run. -/
theorem delivery_of_started {c : Consumer} {t : Track} {p : Pipeline}
    (tracked : Pipeline.Tracked c t p) (events_eq : t.events = eventsOf s k history)
    {e : Envelope} (started : .event s k (.started e) ∈ history) :
    ∃ d ∈ t.deliveries, .started e ∈ d.events ∧ Envelope.ofReceived d.message = .ok e := by
  have mem : .started e ∈ t.events := by
    rw [events_eq]
    exact mem_eventsOf.2 started
  obtain ⟨d, hd, shown⟩ := tracked.delivery_of_event mem rfl
  obtain ⟨a, later, handled⟩ := (tracked.course d hd).handled_of_started shown
  exact ⟨d, hd, shown, handled.accepted⟩

theorem Reached.received_of_started (h : Reached consumers history sys) {e : Envelope}
    (started : .event s k (.started e) ∈ history) :
    ∃ r, ((s, k), r) ∈ receivedIn history ∧ Envelope.ofReceived r = .ok e := by
  obtain ⟨sub, run, hs, hk⟩ := h.run_of_event started
  obtain ⟨t, tracked, events_eq⟩ := h.follows.tracked s sub k run hs hk
  obtain ⟨d, hd, -, accepted⟩ := delivery_of_started tracked events_eq started
  exact ⟨d.message, mem_receivedIn tracked events_eq (tracked.mem_received hd), accepted⟩

/-- Two deliveries of a run with one receipt are the same. -/
theorem Reached.delivery_unique (h : Reached consumers history sys) {c : Consumer}
    {t : Track} {p : Pipeline} (tracked : Pipeline.Tracked c t p)
    (events_eq : t.events = eventsOf s k history) {d d' : Delivery} (hd : d ∈ t.deliveries)
    (hd' : d' ∈ t.deliveries) (same : d.message.receipt = d'.message.receipt) : d = d' := by
  have receiptAt {d : Delivery} (hd : d ∈ t.deliveries) :
      (t.received.map (·.receipt))[d.number]? = some d.message.receipt := by
    rw [List.getElem?_map, tracked.accounted.getElem?_number d hd]
    rfl
  have bound : d.number < (t.received.map (·.receipt)).length := by
    rw [List.length_map]
    exact tracked.accounted.number_lt hd
  have number : d.number = d'.number := by
    refine (List.getElem?_inj bound (h.received_nodup tracked events_eq)).1 ?_
    rw [receiptAt hd, receiptAt hd', same]
  exact List.inj_on_of_nodup_map tracked.accounted.numbers_nodup hd hd' number

/-- A handler that waits to be called has not been called for the delivery before. -/
theorem Reached.fresh_call (h : Reached consumers history sys) {w : Nat} {sub : Subscriber}
    {run : Run} {e : Envelope} (hs : sys.subscribers[s]? = some sub)
    (hk : sub.runs[k]? = some run) (at_ : run.pipeline.workers[w]? = some (.dispatching e)) :
    e.receipt ∉ (calls history).map (·.receipt) := by
  intro called
  obtain ⟨e', mem, same⟩ := List.mem_map.1 called
  obtain ⟨s', k', started⟩ := mem_calls.1 mem
  obtain ⟨t, tracked, events_eq⟩ := h.follows.tracked s sub k run hs hk
  obtain ⟨d, hw, carried⟩ := tracked.matches.carried at_ rfl
  have hd : d ∈ t.deliveries := Track.mem_deliveries_of_worker hw
  have receipt {r : Received} {e : Envelope} (accepted : Envelope.ofReceived r = .ok e) :
      e.receipt = r.receipt := (Envelope.ofReceived_eq_ok accepted).2.1
  -- The same receipt means the same run,
  obtain ⟨r, received, accepted⟩ := h.received_of_started started
  have inside : ((s, k), d.message) ∈ receivedIn history :=
    mem_receivedIn tracked events_eq (tracked.mem_received hd)
  have both : r.receipt = d.message.receipt := by
    rw [← receipt accepted, ← receipt carried.1.accepted, same]
  have one : ((s', k'), r) = ((s, k), d.message) :=
    List.inj_on_of_nodup_map h.receipts_nodup received inside both
  cases one
  -- and the same delivery, whose handler has not been called.
  obtain ⟨d', hd', shown, accepted'⟩ := delivery_of_started tracked events_eq started
  have both' : d'.message.receipt = d.message.receipt := by
    rw [← receipt accepted', ← receipt carried.1.accepted, same]
  obtain rfl : d' = d := h.delivery_unique tracked events_eq hd' hd both'
  rw [carried.1.events_eq] at shown
  simp at shown

/-- No two calls of handlers are for one delivery. -/
theorem Reached.calls_nodup (h : Reached consumers history sys) :
    ((calls history).map (·.receipt)).Nodup := by
  induction h with
  | start => exact List.nodup_nil
  | @step history sys a sys' events h hx ih =>
    rw [calls_append, List.map_append]
    by_cases silent : calls (sys.occurrences a events) = []
    · rw [silent, List.map_nil, List.append_nil]
      exact ih
    · obtain ⟨e, mem⟩ := List.exists_mem_of_ne_nil _ silent
      obtain ⟨s, k, started⟩ := mem_calls.1 mem
      obtain ⟨m, sub, run, w, rfl, hs, hk, at_, rfl⟩ := started_step hx started
      have once : calls (sys.occurrences (.move s k m) [.started e]) = [e] := by
        simp [calls, occurrences, Action.observed, List.filterMap_map, Occurrence.call?]
      rw [once, List.map_singleton, List.nodup_append]
      refine ⟨ih, List.nodup_singleton _, fun x hx y hy same => ?_⟩
      rw [List.mem_singleton] at hy
      exact h.fresh_call hs hk at_ (hy ▸ same ▸ hx)

end Courier.System
