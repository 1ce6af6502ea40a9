import Courier.Proofs.Pipeline.Numbering

/-!
# The course of a delivery

What is observed of a delivery follows one of few courses, whatever the poller and the other workers
do in between and wherever the delivery is at the moment. A delivery is given up unread, or found
malformed, or declined before its handler is called, or its handler is called and runs, fails, is
interrupted or succeeds; only after success comes a delete call, and there is no second one.

Every question about a single delivery is then a case analysis over its course.

## Main definitions

* `Envelope.Declined`: what follows when an envelope does not come to its handler.
* `Envelope.Aftermath`: what follows when a handler has come to an activity.
* `Delivery.Course`: the courses of a delivery.
* `Event.phase`: the place of an event in a course.

## Main results

* `Delivery.Course.ascending`: the events of a course come in the order of their phases.
* `Pipeline.Tracked.course`: every delivery of a run follows a course.
* `Pipeline.Tracked.life_course`: so do the entries of the log under a number.
-/

namespace Courier

namespace Envelope

variable (e : Envelope)

/-- What is observed of an envelope whose handler is not called. -/
inductive Declined : List Event → Prop
  | waiting : Declined []
  /-- The run has ended with the envelope in the decoded buffer. -/
  | undispatched : Declined [.settled e]
  | failed (error : DispatchError) : Declined [.failed e error, .settled e]
  | interrupted : Declined [.interrupted e .handling, .settled e]

/-- What is observed of an envelope after its handler has come to an activity. -/
inductive Aftermath : Activity → List Event → Prop
  | running (a) : Aftermath a []
  | interrupted (a) : Aftermath a [.interrupted e .handling, .settled e]
  | failed (reason) : Aftermath (.finish (.failed reason))
      [.returned e (.failed reason), .failed e (.handler reason), .settled e]
  | panicked (reason) : Aftermath (.finish (.panicked reason))
      [.returned e (.panicked reason), .failed e (.panicked reason), .settled e]
  | succeeded : Aftermath (.finish .ok) [.returned e .ok]
  | unacknowledged : Aftermath (.finish .ok)
      [.returned e .ok, .interrupted e .acknowledging, .settled e]
  | deleting : Aftermath (.finish .ok) [.returned e .ok, .deleteCalled e]
  | unanswered : Aftermath (.finish .ok)
      [.returned e .ok, .deleteCalled e, .interrupted e .acknowledging, .settled e]
  | answered (r) : Aftermath (.finish .ok)
      [.returned e .ok, .deleteCalled e, .deleted e r, .settled e]

end Envelope

/-- The courses of a delivery. -/
inductive Delivery.Course (c : Consumer) (d : Delivery) : Prop
  | unread (events_eq : d.events = [] ∨ d.events = [.buffered d.message])
      (unrouted : d.routes = [])
  | malformed {error} (refused : Envelope.ofReceived d.message = .error error)
      (events_eq : d.events = [.buffered d.message, .malformed d.message error])
      (unrouted : d.routes = [])
  | declined {e later} (accepted : Envelope.ofReceived d.message = .ok e)
      (after : e.Declined later) (events_eq : d.events = [.buffered d.message, .decoded e] ++ later)
      (routed : d.routes.length ≤ 1)
  | called {e a later} (handled : d.Handled c e a later) (after : e.Aftermath a later)

namespace Delivery

variable {c : Consumer} {d : Delivery} {e : Envelope}

theorem Read.course (h : d.Read e) (routed : d.routes.length ≤ 1) : d.Course c :=
  .declined h.accepted .waiting (by rw [h.events_eq, List.append_nil]) routed

theorem Read.decline (h : d.Read e) (routed : d.routes.length ≤ 1) {later : List Event}
    (after : e.Declined later) : (d.observe later).Course c :=
  .declined h.accepted after (by simp [observe, h.events_eq]) routed

end Delivery

/-! ### The order of the events -/

/-- The place of an event in the course of a delivery. Only what a handler does on its way can
happen more than once. -/
def Event.phase : Event → Nat
  | .buffered _ => 0
  | .decoded _ | .malformed _ _ => 1
  | .started _ => 2
  | .noted _ _ | .sent _ _ _ _ => 3
  | .returned _ _ => 4
  | .deleteCalled _ => 5
  | .deleted _ _ | .failed _ _ | .interrupted _ _ => 6
  | _ => 7

/-- An event may come before another one. -/
def Event.Precedes (ev ev' : Event) : Prop :=
  ev.phase < ev'.phase ∨ ev.phase = 3 ∧ ev'.phase = 3

instance (ev ev' : Event) : Decidable (ev.Precedes ev') :=
  inferInstanceAs (Decidable (_ ∨ _))

theorem Activity.Leads.phase_eq {e : Envelope} {a a' : Activity} {deeds : List Event}
    (h : Leads e a deeds a') : ∀ ev ∈ deeds, ev.phase = 3 := by
  induction h with
  | refl => exact List.forall_mem_nil _
  | sleep h ih | draw id h ih => exact ih
  | note h ih | send r h ih =>
    intro ev mem
    rcases List.mem_append.1 mem with mem | mem
    · exact ih ev mem
    · rw [List.mem_singleton.1 mem]
      rfl

/-- The aftermath of an activity comes after what its handler has done. -/
theorem Envelope.Aftermath.ascending {e : Envelope} {a : Activity} {later : List Event}
    (h : e.Aftermath a later) :
    later.Pairwise Event.Precedes ∧ ∀ ev ∈ later, 3 < ev.phase := by
  cases h <;> simp [Event.Precedes, Event.phase]

namespace Delivery

variable {c : Consumer} {d : Delivery}

/-- The events of a course come in the order of their phases. -/
theorem Course.ascending (h : d.Course c) : d.events.Pairwise Event.Precedes := by
  cases h with
  | unread events_eq unrouted =>
    rcases events_eq with events_eq | events_eq <;> simp [events_eq]
  | malformed refused events_eq unrouted => simp [events_eq, Event.Precedes, Event.phase]
  | declined accepted after events_eq routed =>
    cases after <;> simp [events_eq, Event.Precedes, Event.phase]
  | @called e a later handled after =>
    obtain ⟨b, cancelled, first, deeds, -, -, leads, events_eq⟩ := handled.called
    obtain ⟨ascending, above⟩ := after.ascending
    have before : [Event.buffered d.message, .decoded e, .started e].Pairwise Event.Precedes := by
      simp [Event.Precedes, Event.phase]
    have below : ∀ ev ∈ [Event.buffered d.message, .decoded e, .started e], ev.phase < 3 := by
      simp [Event.phase]
    have between : deeds.Pairwise Event.Precedes :=
      List.pairwise_of_forall_mem_list fun ev mem ev' mem' =>
        .inr ⟨leads.phase_eq ev mem, leads.phase_eq ev' mem'⟩
    rw [events_eq]
    refine List.pairwise_append.2 ⟨List.pairwise_append.2 ⟨before, between, ?_⟩, ascending, ?_⟩
    · intro ev mem ev' mem'
      exact .inl (leads.phase_eq ev' mem' ▸ below ev mem)
    · intro ev mem ev' mem'
      have bound : ev.phase ≤ 3 := by
        rcases List.mem_append.1 mem with mem | mem
        · exact Nat.le_of_lt (below ev mem)
        · exact Nat.le_of_eq (leads.phase_eq ev mem)
      exact .inl (Nat.lt_of_le_of_lt bound (above ev' mem'))

/-- An event of a phase that is not that of the deeds of a handler happens at most once. -/
theorem Course.countP_le_one (h : d.Course c) {select : Event → Bool} {n : Nat} (hn : n ≠ 3)
    (phase : ∀ ev, select ev = true → ev.phase = n) : d.events.countP select ≤ 1 := by
  have ascending : (d.events.filter select).Pairwise Event.Precedes := h.ascending.filter select
  have same : ∀ ev ∈ d.events.filter select, ev.phase = n := fun ev mem =>
    phase ev (List.mem_filter.1 mem).2
  rw [List.countP_eq_length_filter]
  generalize d.events.filter select = selected at ascending same
  match selected with
  | [] | [_] => simp
  | ev :: ev' :: rest =>
    have precedes : ev.Precedes ev' := (List.pairwise_cons.1 ascending).1 ev' List.mem_cons_self
    have first : ev.phase = n := same ev List.mem_cons_self
    have second : ev'.phase = n := same ev' (List.mem_cons_of_mem _ List.mem_cons_self)
    rcases precedes with lt | ⟨deed, -⟩ <;> omega

theorem Course.handled_of_started (h : d.Course c) {e : Envelope}
    (started : .started e ∈ d.events) : ∃ a later, d.Handled c e a later := by
  cases h with
  | unread events_eq unrouted =>
    rcases events_eq with events_eq | events_eq <;> simp [events_eq] at started
  | malformed refused events_eq unrouted => simp [events_eq] at started
  | declined accepted after events_eq routed => cases after <;> simp [events_eq] at started
  | @called e' a later handled after =>
    obtain ⟨b, cancelled, first, deeds, -, -, leads, events_eq⟩ := handled.called
    have notDeed : .started e ∉ deeds := fun deed =>
      absurd (leads.phase_eq _ deed) (by simp [Event.phase])
    have notLater : .started e ∉ later := fun late =>
      absurd (after.ascending.2 _ late) (by simp [Event.phase])
    obtain rfl : e = e' := by simpa [events_eq, notDeed, notLater] using started
    exact ⟨a, later, handled⟩

end Delivery

namespace Worker

variable {c : Consumer} {d : Delivery}

/-- A delivery in the hand of a worker follows a course. -/
theorem Carries.course {s : Worker} (h : s.Carries c d) : d.Course c := by
  cases s with
  | idle | stopped => exact h.elim
  | decoding m =>
    obtain ⟨-, events_eq, unrouted⟩ := h
    exact .unread (.inr events_eq) unrouted
  | offering e => exact h.1.course (by simp [h.2])
  | dispatching e =>
    obtain ⟨read, route, routed⟩ := h
    exact read.course (by simp [routed])
  | handling e a => exact .called h (.running a)
  | acknowledging e => exact .called h .succeeded
  | deleting e => exact .called h .deleting

/-- A delivery that a worker lets go of has followed a course. -/
theorem Release.course {cancelled : Bool} {w : Nat} {e : Envelope} {a : Action} {s : Worker}
    {events : List Event} (h : Release c cancelled w e a s events) (hd : s.Carries c d) :
    (d.observe (events ++ [.settled e])).Course c := by
  cases h with
  | unregistered missing =>
    obtain ⟨read, route, routed⟩ := hd
    exact read.decline (by simp [routed]) (.failed _)
  | unreadable registered refused =>
    obtain ⟨read, route, routed⟩ := hd
    exact read.decline (by simp [routed]) (.failed _)
  | interruptStart shutdown registered =>
    obtain ⟨read, route, routed⟩ := hd
    exact read.decline (by simp [routed]) .interrupted
  | fail reason => exact .called (hd.later _) (.failed reason)
  | panic reason => exact .called (hd.later _) (.panicked reason)
  | answered r => exact .called (hd.later _) (.answered r)
  | interruptHandler a shutdown => exact .called (hd.later _) (.interrupted a)
  | interruptAcknowledging shutdown => exact .called (hd.later _) .unacknowledged
  | interruptDeleting shutdown => exact .called (hd.later _) .unanswered

end Worker

/-- A delivery with which the run is done has followed a course. -/
theorem Delivery.Ended.course {c : Consumer} {d : Delivery} (h : d.Ended c) : d.Course c := by
  cases h with
  | unread events_eq unrouted => exact .unread events_eq unrouted
  | malformed refused events_eq unrouted => exact .malformed refused events_eq unrouted
  | undispatched read routed => exact read.decline (by simp [routed]) .undispatched
  | released carried step => exact step.course carried

/-- The deliveries of a corresponding track follow courses. -/
theorem Track.Matches.course {c : Consumer} {t : Track} {p : Pipeline} (h : t.Matches c p) :
    ∀ d ∈ t.deliveries, d.Course c := by
  intro d hd
  simp only [Track.deliveries, List.mem_append, or_assoc] at hd
  rcases hd with hand | raw | worker | decoded | ended
  · obtain ⟨events_eq, unrouted⟩ := h.hand.2 d hand
    exact .unread (.inl events_eq) unrouted
  · obtain ⟨events_eq, unrouted⟩ := h.raw.2 d raw
    exact .unread (.inr events_eq) unrouted
  · obtain ⟨s, -, carries⟩ := h.exists_worker worker
    exact carries.course
  · obtain ⟨e, -, read, routed⟩ := h.exists_envelope decoded
    exact read.course (by simp [routed])
  · exact (h.ended d ended).course

namespace Pipeline

variable {c : Consumer} {t : Track} {p : Pipeline}

/-- Every delivery of a run follows a course. -/
theorem Tracked.course (h : Tracked c t p) : ∀ d ∈ t.deliveries, d.Course c :=
  h.matches.course

theorem Tracked.exists_delivery (h : Tracked c t p) {n : Nat} (hn : n < t.received.length) :
    ∃ d ∈ t.deliveries, d.number = n := by
  have mem := h.accounted.numbers_perm.mem_iff.2 (List.mem_range.2 hn)
  exact List.mem_map.1 mem

/-- The entries of the log under a number are the events of a delivery of the message that was
received under it. -/
theorem Tracked.life_course (h : Tracked c t p) {n : Nat} {ev : Event}
    (mem : (some n, ev) ∈ t.log) : ∃ d ∈ t.deliveries, d.number = n ∧
      t.received[n]? = some d.message ∧ lifeOf n t.log = d.events := by
  obtain ⟨d, hd, rfl⟩ := h.exists_delivery (h.accounted.lt_of_mem_log mem)
  exact ⟨d, hd, rfl, h.accounted.getElem?_number d hd, h.accounted.life_eq d hd⟩

theorem Tracked.mem_events (h : Tracked c t p) {d : Delivery} (hd : d ∈ t.deliveries) {ev : Event}
    (mem : ev ∈ d.events) : ev ∈ t.events := by
  rw [← h.accounted.life_eq d hd, mem_lifeOf] at mem
  exact List.mem_map_of_mem mem

theorem Tracked.delivery_of_event (h : Tracked c t p) {ev : Event} (mem : ev ∈ t.events)
    (particular : ev.isGeneral = false) : ∃ d ∈ t.deliveries, ev ∈ d.events := by
  obtain ⟨⟨tag, _⟩, logged, rfl⟩ := List.mem_map.1 mem
  cases tag with
  | none =>
    rw [h.accounted.isGeneral_of_mem_log logged] at particular
    cases particular
  | some n =>
    obtain ⟨d, hd, -, -, life⟩ := h.life_course logged
    exact ⟨d, hd, life ▸ mem_lifeOf.2 logged⟩

theorem Tracked.mem_received (h : Tracked c t p) {d : Delivery} (hd : d ∈ t.deliveries) :
    d.message ∈ t.received :=
  List.mem_of_getElem? (h.accounted.getElem?_number d hd)

end Pipeline

end Courier
