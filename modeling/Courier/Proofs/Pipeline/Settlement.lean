import Courier.Proofs.Pipeline.Conservation
import Courier.Proofs.Pipeline.Pending

/-!
# What follows a success

As long as a run is not asked to end, a delivery whose handler has ended well stays with its worker
until the backend has answered the delete call. An event that bears an envelope belongs to a
delivery of the message of that envelope.

## Main definitions

* `Event.envelope?`: the envelope that an event bears.

## Main results

* `Delivery.Course.accepted`: the events of a delivery bear its envelope.
* `Pipeline.Moves.of_envelope`: the steps with which events that bear an envelope are observed.
* `Pipeline.Tracked.after_success`: where a delivery is whose handler has ended well.
-/

namespace Courier

/-- The envelope that an event bears. -/
def Event.envelope? : Event → Option Envelope
  | .decoded e | .started e | .noted e _ | .sent e _ _ _ | .returned e _ | .failed e _
  | .deleteCalled e | .deleted e _ | .interrupted e _ | .settled e => some e
  | .received _ | .receiveFailed _ | .buffered _ | .malformed _ _ | .dropped _ | .stopped => none

theorem Event.isGeneral_of_envelope {ev : Event} {e : Envelope} (h : ev.envelope? = some e) :
    ev.isGeneral = false := by
  cases ev <;> first | rfl | cases h

/-- What a handler does on its way bears the envelope with which it was called. -/
theorem Activity.Leads.envelope_eq {e : Envelope} {a a' : Activity} {deeds : List Event}
    (h : Leads e a deeds a') : ∀ ev ∈ deeds, ev.envelope? = some e := by
  induction h with
  | refl => exact List.forall_mem_nil _
  | sleep h ih | draw id h ih => exact ih
  | note h ih | send r h ih =>
    intro ev mem
    rcases List.mem_append.1 mem with mem | mem
    · exact ih ev mem
    · rw [List.mem_singleton.1 mem]
      rfl

namespace Envelope

variable {e : Envelope} {later : List Event}

theorem Declined.envelope_eq (h : e.Declined later) : ∀ ev ∈ later, ev.envelope? = some e := by
  cases h <;> simp [Event.envelope?]

theorem Aftermath.envelope_eq {a : Activity} (h : e.Aftermath a later) :
    ∀ ev ∈ later, ev.envelope? = some e := by
  cases h <;> simp [Event.envelope?]

/-- The delete call of a delivery whose handler has ended well has been answered, or no event
decides the fate of the delivery. -/
theorem Aftermath.answered_or_undecided {a : Activity} (h : e.Aftermath a later) {e' : Envelope}
    (returned : .returned e' .ok ∈ later) :
    (∃ r, later = [.returned e .ok, .deleteCalled e, .deleted e r, .settled e]) ∨
      ∀ ev ∈ later, ev.isDeciding = false := by
  cases h with
  | answered r => exact .inl ⟨r, rfl⟩
  | succeeded | unacknowledged | deleting | unanswered =>
    exact .inr (by simp [Event.isDeciding, Event.fate?])
  | running | interrupted | failed | panicked => simp at returned

end Envelope

namespace Delivery

variable {c : Consumer} {d : Delivery} {e e' : Envelope} {a : Activity} {later : List Event}

/-- The events of a delivery bear its envelope. -/
theorem Course.accepted (h : d.Course c) {ev : Event} (mem : ev ∈ d.events)
    (bears : ev.envelope? = some e) : Envelope.ofReceived d.message = .ok e := by
  cases h with
  | unread events_eq unrouted =>
    rcases events_eq with events_eq | events_eq
    · simp [events_eq] at mem
    · obtain rfl : ev = .buffered d.message := by simpa [events_eq] using mem
      cases bears
  | malformed refused events_eq unrouted =>
    rw [events_eq] at mem
    rcases List.mem_cons.1 mem with rfl | mem
    · cases bears
    · rw [List.mem_singleton.1 mem] at bears
      cases bears
  | @declined e₀ later accepted after events_eq routed =>
    have own : ev.envelope? = some e₀ := by
      rw [events_eq] at mem
      simp only [List.cons_append, List.nil_append, List.mem_cons] at mem
      rcases mem with rfl | rfl | mem
      · cases bears
      · rfl
      · exact after.envelope_eq ev mem
    rwa [Option.some.inj (bears.symm.trans own)]
  | @called e₀ a later handled after =>
    obtain ⟨b, cancelled, first, deeds, -, -, leads, events_eq⟩ := handled.called
    have own : ev.envelope? = some e₀ := by
      rw [events_eq] at mem
      simp only [List.cons_append, List.nil_append, List.mem_cons, List.mem_append] at mem
      rcases mem with rfl | rfl | rfl | deed | mem
      · cases bears
      · rfl
      · rfl
      · exact leads.envelope_eq ev deed
      · exact after.envelope_eq ev mem
    rw [Option.some.inj (bears.symm.trans own)]
    exact handled.accepted

theorem Handled.returned_later (h : d.Handled c e a later) {e' : Envelope} {o : Outcome}
    (mem : .returned e' o ∈ d.events) : .returned e' o ∈ later := by
  obtain ⟨b, cancelled, first, deeds, -, -, leads, events_eq⟩ := h.called
  have notDeed : .returned e' o ∉ deeds := fun deed =>
    absurd (leads.phase_eq _ deed) (by simp [Event.phase])
  simpa [events_eq, notDeed] using mem

theorem Course.handled_of_returned (h : d.Course c) {e : Envelope} {o : Outcome}
    (mem : .returned e o ∈ d.events) :
    ∃ a later, d.Handled c e a later ∧ e.Aftermath a later := by
  have accepted := h.accepted mem rfl
  cases h with
  | unread events_eq unrouted =>
    rcases events_eq with events_eq | events_eq <;> simp [events_eq] at mem
  | malformed refused events_eq unrouted => simp [events_eq] at mem
  | declined accepted after events_eq routed => cases after <;> simp [events_eq] at mem
  | @called e' a later handled after =>
    obtain rfl : e = e' := Except.ok.inj (accepted.symm.trans handled.accepted)
    exact ⟨a, later, handled, after⟩

/-- A delivery whose handler has ended well and with which the run is done, though it has not been
discarded, has been answered. -/
theorem Course.answered (h : d.Course c) {e : Envelope} (returned : .returned e .ok ∈ d.events)
    (kept : d.fate ≠ .discarded) : ∃ r, .deleted e r ∈ d.events := by
  obtain ⟨a, later, handled, after⟩ := h.handled_of_returned returned
  have late := handled.returned_later returned
  obtain ⟨b, cancelled, first, deeds, -, -, leads, events_eq⟩ := handled.called
  rcases after.answered_or_undecided late with ⟨r, rfl⟩ | undecided
  · exact ⟨r, by simp [events_eq]⟩
  · refine absurd ?_ kept
    have none_ : d.events.findSome? Event.fate? = none := by
      refine List.findSome?_eq_none_iff.2 fun ev mem => ?_
      rw [events_eq] at mem
      simp only [List.cons_append, List.nil_append, List.mem_cons, List.mem_append] at mem
      rcases mem with rfl | rfl | rfl | deed | mem
      · rfl
      · rfl
      · rfl
      · have phase : ev.phase = 3 := leads.phase_eq ev deed
        cases ev <;> first | rfl | cases phase
      · exact Option.not_isSome_iff_eq_none.1 (by simpa [Event.isDeciding] using undecided ev mem)
    rw [fate, none_]
    rfl

end Delivery

theorem Worker.Carries.of_returned {c : Consumer} {s : Worker} {d : Delivery} {e : Envelope}
    (h : s.Carries c d) (returned : .returned e .ok ∈ d.events) :
    s = .acknowledging e ∨ s = .deleting e := by
  have accepted := h.course.accepted returned rfl
  cases s with
  | idle | stopped => exact h.elim
  | decoding m => simp [h.2.1] at returned
  | offering e' => simp [h.1.events_eq] at returned
  | dispatching e' => simp [h.1.events_eq] at returned
  | handling e' a => exact absurd (Delivery.Handled.returned_later h returned) List.not_mem_nil
  | acknowledging e' =>
    obtain rfl : e = e' := Except.ok.inj (accepted.symm.trans h.accepted)
    exact .inl rfl
  | deleting e' =>
    obtain rfl : e = e' := Except.ok.inj (accepted.symm.trans h.accepted)
    exact .inr rfl

/-- What has been observed of a delivery with whose envelope a worker is busy. -/
theorem Worker.Carries.of_envelope {c : Consumer} {s : Worker} {d : Delivery} {e : Envelope}
    (h : s.Carries c d) (held : s.envelope? = some e) :
    Envelope.ofReceived d.message = .ok e ∧ .decoded e ∈ d.events ∧
      ∀ e', .settled e' ∉ d.events ∧ ∀ r, .deleted e' r ∉ d.events := by
  have read (hd : d.Read e) : Envelope.ofReceived d.message = .ok e ∧ .decoded e ∈ d.events ∧
      ∀ e', .settled e' ∉ d.events ∧ ∀ r, .deleted e' r ∉ d.events := by
    simp [hd.accepted, hd.events_eq]
  have handled {a : Activity} {later : List Event} (hd : d.Handled c e a later)
      (open_ : ∀ ev ∈ later, ev.phase ≤ 5) : Envelope.ofReceived d.message = .ok e ∧
      .decoded e ∈ d.events ∧ ∀ e', .settled e' ∉ d.events ∧ ∀ r, .deleted e' r ∉ d.events := by
    obtain ⟨b, cancelled, first, deeds, -, -, leads, events_eq⟩ := hd.called
    have early : ∀ ev ∈ d.events, ev.phase ≤ 5 := by
      intro ev mem
      rw [events_eq] at mem
      simp only [List.cons_append, List.nil_append, List.mem_cons, List.mem_append] at mem
      rcases mem with rfl | rfl | rfl | deed | mem
      · simp [Event.phase]
      · simp [Event.phase]
      · simp [Event.phase]
      · have phase : ev.phase = 3 := leads.phase_eq ev deed
        omega
      · exact open_ ev mem
    refine ⟨hd.accepted, by simp [events_eq], fun e' => ⟨fun mem => ?_, fun r mem => ?_⟩⟩
    · exact absurd (early _ mem) (by simp [Event.phase])
    · exact absurd (early _ mem) (by simp [Event.phase])
  cases s with
  | idle | stopped | decoding m => cases held
  | offering e' =>
    cases held
    exact read h.1
  | dispatching e' =>
    cases held
    exact read h.1
  | handling e' a =>
    cases held
    exact handled h (List.forall_mem_nil _)
  | acknowledging e' =>
    cases held
    exact handled h (by simp [Event.phase])
  | deleting e' =>
    cases held
    exact handled h (by simp [Event.phase])

namespace Pipeline

/-! ### The steps of an event -/

section

variable {c : Consumer} {u : Unsettled} {p : Pipeline} {a : Action} {x : Transition}
  {e : Envelope}

/-- An event that bears an envelope is that of its decoding, or is observed when a worker goes on
with an envelope or lets go of one, or is the last one of a delivery. -/
theorem Moves.of_envelope (h : Moves c u p a x) {ev : Event} (mem : ev ∈ x.events)
    (bears : ev.envelope? = some e) :
      (∃ (w : Nat) (m : Received), p.workers[w]? = some (.decoding m) ∧ a = .decode w ∧
        ev = .decoded e) ∨ ev = .settled e ∨
      (∃ (w : Nat) (e' : Envelope) (s s' : Worker), p.workers[w]? = some s ∧
        s.Advance c p.cancelled w e' a x.events s') ∨
      ∃ (w : Nat) (e' : Envelope) (s : Worker) (events : List Event), p.workers[w]? = some s ∧
        s.Release c p.cancelled w e' a events ∧ x.events = events ++ [.settled e'] := by
  cases h with
  | decode at_ read =>
    rw [List.mem_singleton.1 mem] at bears ⊢
    exact .inl ⟨_, _, at_, rfl, congrArg Event.decoded (Option.some.inj bears)⟩
  | advance at_ step => exact .inr (.inr (.inl ⟨_, _, _, _, at_, step⟩))
  | release at_ step => exact .inr (.inr (.inr ⟨_, _, _, _, at_, step, rfl⟩))
  | stopPoller running shutdown =>
    have mem : ev ∈ p.poller.farewell := mem
    cases at_ : p.poller with
    | delivering rest =>
      rw [at_] at mem
      rw [List.mem_singleton.1 mem] at bears
      cases bears
    | _ => simp [at_, Poller.farewell] at mem
  | finish complete =>
    have mem : ev ∈ Event.dropped p.raw :: p.decoded.map .settled ++ [.stopped] := mem
    simp only [List.cons_append, List.mem_cons, List.mem_append, List.mem_map, List.not_mem_nil,
      or_false] at mem
    rcases mem with rfl | ⟨e', -, rfl⟩ | rfl
    · cases bears
    · exact .inr (.inl (congrArg Event.settled (Option.some.inj bears)))
    · cases bears
  | receiveFailed | receiveNothing | receive | push | reject =>
    rw [List.mem_singleton.1 mem] at bears
    cases bears
  | _ => exact absurd mem List.not_mem_nil

theorem Moves.handling_of_returned (h : Moves c u p a x) (mem : .returned e .ok ∈ x.events) :
    ∃ w : Nat, p.workers[w]? = some (.handling e (.finish .ok)) ∧ a = .proceed w ∧
      x.events = [.returned e .ok] := by
  rcases h.of_envelope mem rfl with
    ⟨-, -, -, -, eq⟩ | eq | ⟨w, e', s, s', at_, step⟩ | ⟨w, e', s, events, at_, step, events_eq⟩
  · cases eq
  · cases eq
  · generalize x.events = events at mem step ⊢
    cases step with
    | succeed =>
      obtain rfl : e = e' := by simpa using mem
      exact ⟨w, at_, rfl, rfl⟩
    | _ => simp at mem
  · rw [events_eq] at mem
    cases step with
    | _ => simp at mem

theorem Moves.deleting_of_deleted (h : Moves c u p a x) {r : Except QueueError Unit}
    (mem : .deleted e r ∈ x.events) : ∃ w : Nat, p.workers[w]? = some (.deleting e) ∧
      a = .deleted w r ∧ x.events = [.deleted e r, .settled e] := by
  rcases h.of_envelope mem rfl with
    ⟨-, -, -, -, eq⟩ | eq | ⟨w, e', s, s', at_, step⟩ | ⟨w, e', s, events, at_, step, events_eq⟩
  · cases eq
  · cases eq
  · generalize x.events = events at mem step
    cases step with
    | _ => simp at mem
  · rw [events_eq] at mem ⊢
    cases step with
    | answered r' =>
      obtain ⟨rfl, rfl⟩ : e = e' ∧ r = r' := by simpa using mem
      exact ⟨w, at_, rfl, rfl⟩
    | _ => simp at mem

end

/-- As long as a run is not asked to end, a delivery whose handler has ended well is in the hand of
a worker that is about to delete the message, or the delete call has been answered. -/
theorem Tracked.after_success {c : Consumer} {t : Track} {p : Pipeline} (h : Tracked c t p)
    (running : p.cancelled = false) {e : Envelope} (returned : .returned e .ok ∈ t.events) :
    (∃ (w : Nat) (s : Worker), p.workers[w]? = some s ∧ (s = .acknowledging e ∨ s = .deleting e)) ∨
      ∃ r, .deleted e r ∈ t.events := by
  obtain ⟨d, hd, mem⟩ := h.delivery_of_event returned rfl
  have places := h.matches
  have there := hd
  simp only [Track.deliveries, List.mem_append, or_assoc] at there
  rcases there with hand | raw | worker | decoded | ended
  · simp [(places.hand.2 d hand).1] at mem
  · simp [(places.raw.2 d raw).1] at mem
  · obtain ⟨s, inside, carries⟩ := places.exists_worker worker
    obtain ⟨w, at_⟩ := List.mem_iff_getElem?.1 inside
    exact .inl ⟨w, s, at_, carries.of_returned mem⟩
  · obtain ⟨e', -, read, -⟩ := places.exists_envelope decoded
    simp [read.events_eq] at mem
  · obtain ⟨r, answered⟩ := (h.course d hd).answered mem (h.kept running d ended)
    exact .inr ⟨r, h.mem_events hd answered⟩

end Pipeline

end Courier
