import Courier.Proofs.Pipeline.Conservation

/-!
# Acknowledgement

A run acknowledges a message by a delete call, and only after the handler that was called for that
very delivery has ended well. This is shown for whatever the backend answers, since an answer is any
argument of a step, and for every order of the steps. The delivery to which a delete call belongs is
the one under whose number the call stands in the log.

## Main definitions

* `Event.isFailure`: a delivery has gone wrong or was cut off.
* `Consumer.Served`: what has been observed of a delivery whose handler has ended well.

## Main results

* `Pipeline.Tracked.acknowledgement`: a delete call follows a success, is the only one of its
  delivery, and never follows a failure.
-/

namespace Courier

/-- Whether a delivery has gone wrong or was cut off. -/
def Event.isFailure : Event → Bool
  | .malformed _ _ | .failed _ _ | .interrupted _ _ => true
  | .returned _ .ok => false
  | .returned _ _ => true
  | _ => false

/-- Just this has been observed of a delivery of the message: its envelope was decoded, the handler
registered for its type was called with it, and that handler has ended well. -/
structure Consumer.Served (c : Consumer) (m : Received) (e : Envelope) (life : List Event) :
    Prop where
  accepted : Envelope.ofReceived m = .ok e
  called : ∃ b cancelled first deeds, c.registry.find? e.typeName = some b ∧
    b.start (.ofEnvelope e cancelled) e = .ok first ∧ first.Leads e deeds (.finish .ok) ∧
    life = [.buffered m, .decoded e, .started e] ++ deeds ++ [.returned e .ok]

theorem Consumer.Served.isFailure_eq_false {c : Consumer} {m : Received} {e : Envelope}
    {life : List Event} (h : c.Served m e life) : ∀ ev ∈ life, ev.isFailure = false := by
  obtain ⟨b, cancelled, first, deeds, -, -, leads, life_eq⟩ := h.called
  intro ev mem
  simp only [life_eq, List.append_assoc, List.mem_append, List.mem_cons, List.not_mem_nil,
    or_false] at mem
  rcases mem with (rfl | rfl | rfl) | deed | rfl
  · rfl
  · rfl
  · rfl
  · have phase : ev.phase = 3 := leads.phase_eq ev deed
    cases ev <;> first | rfl | cases phase
  · rfl

/-! ### Splits of a course -/

theorem Event.not_precedes_of_phase_eq {ev ev' : Event} (h : ev.phase = ev'.phase)
    (hn : ev.phase ≠ 3) : ¬ ev.Precedes ev' := by
  rintro (lt | ⟨deed, -⟩) <;> omega

/-- An event of a phase other than that of the deeds stands at one place of a course only. -/
theorem Event.split_unique {before before' after after' : List Event} {ev ev' : Event}
    (ascending : (before ++ ev :: after).Pairwise Event.Precedes)
    (split : before ++ ev :: after = before' ++ ev' :: after') (same : ev.phase = ev'.phase)
    (hn : ev.phase ≠ 3) : before = before' ∧ ev = ev' ∧ after = after' := by
  rcases List.append_eq_append_iff.1 split with ⟨mid, rfl, rest⟩ | ⟨mid, rfl, rest⟩
  · cases mid with
    | nil =>
      obtain ⟨rfl, rfl⟩ := List.cons.inj rest
      exact ⟨(List.append_nil _).symm, rfl, rfl⟩
    | cons first mid =>
      obtain ⟨rfl, rfl⟩ := List.cons.inj rest
      have later : ev.Precedes ev' :=
        (List.pairwise_cons.1 (List.pairwise_append.1 ascending).2.1).1 ev' (by simp)
      exact absurd later (not_precedes_of_phase_eq same hn)
  · cases mid with
    | nil =>
      obtain ⟨rfl, rfl⟩ := List.cons.inj rest
      exact ⟨List.append_nil _, rfl, rfl⟩
    | cons first mid =>
      obtain ⟨rfl, rfl⟩ := List.cons.inj rest
      have later : ev'.Precedes ev :=
        (List.pairwise_append.1 ascending).2.2 ev' (by simp) ev List.mem_cons_self
      exact absurd later (not_precedes_of_phase_eq same.symm (same ▸ hn))

theorem Envelope.Aftermath.of_deleteCalled {e e' : Envelope} {a : Activity} {later : List Event}
    (h : e.Aftermath a later) (mem : .deleteCalled e' ∈ later) :
    a = .finish .ok ∧ ∃ rest, later = .returned e .ok :: .deleteCalled e :: rest := by
  cases h with
  | deleting | unanswered | answered => exact ⟨rfl, _, rfl⟩
  | _ => simp at mem

namespace Delivery

variable {c : Consumer} {d : Delivery}

/-- A delivery with a delete call is one whose handler has ended well. -/
theorem Course.handled_of_deleteCalled (h : d.Course c) {e' : Envelope}
    (mem : .deleteCalled e' ∈ d.events) :
    ∃ e rest, d.Handled c e (.finish .ok) (.returned e .ok :: .deleteCalled e :: rest) ∧
      e.Aftermath (.finish .ok) (.returned e .ok :: .deleteCalled e :: rest) := by
  cases h with
  | unread events_eq unrouted =>
    rcases events_eq with events_eq | events_eq <;> simp [events_eq] at mem
  | malformed refused events_eq unrouted => simp [events_eq] at mem
  | declined accepted after events_eq routed => cases after <;> simp [events_eq] at mem
  | @called e a later handled after =>
    obtain ⟨b, cancelled, first, deeds, -, -, leads, events_eq⟩ := handled.called
    have notDeed : .deleteCalled e' ∉ deeds := fun deed =>
      absurd (leads.phase_eq _ deed) (by simp [Event.phase])
    have late : .deleteCalled e' ∈ later := by simpa [events_eq, notDeed] using mem
    obtain ⟨rfl, rest, rfl⟩ := after.of_deleteCalled late
    exact ⟨e, rest, handled, after⟩

/-- What was observed before a delete call, and what was not observed after it. -/
theorem Course.served (h : d.Course c) {e : Envelope} {before after : List Event}
    (split : d.events = before ++ .deleteCalled e :: after) :
    c.Served d.message e before ∧ ∀ e', .deleteCalled e' ∉ before ++ after := by
  have ascending := h.ascending
  rw [split] at ascending
  have apart (e' : Envelope) : ¬ (Event.deleteCalled e).Precedes (.deleteCalled e') ∧
      ¬ (Event.deleteCalled e').Precedes (.deleteCalled e) := by
    simp [Event.Precedes, Event.phase]
  constructor
  · have mem : .deleteCalled e ∈ d.events := by simp [split]
    obtain ⟨e', rest, handled, -⟩ := h.handled_of_deleteCalled mem
    obtain ⟨b, cancelled, first, deeds, registered, started, leads, events_eq⟩ := handled.called
    have split' : before ++ .deleteCalled e :: after =
        ([.buffered d.message, .decoded e', .started e'] ++ deeds ++ [.returned e' .ok]) ++
          .deleteCalled e' :: rest := by
      rw [← split, events_eq]
      simp
    obtain ⟨before_eq, same, -⟩ := Event.split_unique ascending split' rfl (by simp [Event.phase])
    cases same
    exact ⟨handled.accepted, b, cancelled, first, deeds, registered, started, leads, before_eq⟩
  · intro e' mem
    obtain ⟨-, onward, across⟩ := List.pairwise_append.1 ascending
    rcases List.mem_append.1 mem with mem | mem
    · exact (apart e').2 (across _ mem _ List.mem_cons_self)
    · exact (apart e').1 ((List.pairwise_cons.1 onward).1 _ mem)

theorem Course.not_served (h : d.Course c) {ev : Event} {before after : List Event}
    (split : d.events = before ++ ev :: after) (failure : ev.isFailure = true) :
    ∀ e', .deleteCalled e' ∉ after := by
  intro e' mem
  obtain ⟨mid, rest, rfl⟩ := List.append_of_mem mem
  have split' : d.events = (before ++ ev :: mid) ++ .deleteCalled e' :: rest := by simp [split]
  have fine : ev.isFailure = false := (h.served split').1.isFailure_eq_false ev (by simp)
  rw [fine] at failure
  cases failure

end Delivery

/-! ### The log of a run -/

namespace Pipeline.Tracked

variable {c : Consumer} {t : Track} {p : Pipeline}

/-- An entry of the log that is about a delivery stands under the number of one, and the entries
before and after it are the events of that delivery before and after. -/
theorem split_log (h : Tracked c t p) {before after : List (Option Nat × Event)}
    {tag : Option Nat} {ev : Event} (split : t.log = before ++ (tag, ev) :: after)
    (particular : ev.isGeneral = false) : ∃ n, tag = some n ∧ ∃ d ∈ t.deliveries,
      t.received[n]? = some d.message ∧ d.events = lifeOf n before ++ ev :: lifeOf n after := by
  have mem : (tag, ev) ∈ t.log := by simp [split]
  cases tag with
  | none =>
    rw [h.accounted.isGeneral_of_mem_log mem] at particular
    cases particular
  | some n =>
    obtain ⟨d, hd, -, received, life⟩ := h.life_course mem
    refine ⟨n, rfl, d, hd, received, ?_⟩
    rw [← life, split, lifeOf_append]
    simp [lifeOf]

/-- For any answers of the backend and any order of the steps, and wherever the run has come to: a
delete call is about a delivery whose message was decoded, for whose type a handler is registered,
and whose handler was called and has ended well; it is the only delete call for that delivery, and
carries its receipt. No delete call follows when a delivery has gone wrong or was cut off. -/
theorem acknowledgement (h : Tracked c t p) :
    Observed c t.events p ∧ t.received = t.events.flatMap Event.batch ∧
    (∀ before tag e after, t.log = before ++ (tag, .deleteCalled e) :: after →
      ∃ n m, tag = some n ∧ t.received[n]? = some m ∧ e.id = m.id ∧ e.receipt = m.receipt ∧
        c.Served m e (lifeOf n before) ∧
        ∀ e', .deleteCalled e' ∉ lifeOf n before ++ lifeOf n after) ∧
    ∀ before tag ev after, t.log = before ++ (tag, ev) :: after → ev.isFailure = true →
      ∃ n m, tag = some n ∧ t.received[n]? = some m ∧
        ∀ e', .deleteCalled e' ∉ lifeOf n after := by
  refine ⟨h.observed, h.received_eq, ?_, ?_⟩
  · intro before tag e after split
    obtain ⟨n, rfl, d, hd, received, life⟩ := h.split_log split rfl
    obtain ⟨served, only⟩ := (h.course d hd).served life
    obtain ⟨id, receipt, -⟩ := Envelope.ofReceived_eq_ok served.accepted
    exact ⟨n, d.message, rfl, received, id, receipt, served, only⟩
  · intro before tag ev after split failure
    have particular : ev.isGeneral = false := by
      cases ev <;> first | rfl | cases failure
    obtain ⟨n, rfl, d, hd, received, life⟩ := h.split_log split particular
    exact ⟨n, d.message, rfl, received, (h.course d hd).not_served life failure⟩

end Pipeline.Tracked

/-! ### A run with an acknowledgement -/

namespace Sample

/-- A greeting, as a backend hands it out. -/
def greeting : Received where
  id := ⟨"1", by decide⟩
  receipt := ⟨"2"⟩
  body := placeholder
  attributes := ((∅ : Dictionary Attribute).insert payloadKey (.binary [])).insert typeKey
    (.string "Greeting")
  receiveCount := 1

/-- A consumer that accepts greetings. -/
def host : Consumer where
  settings := { workers := 1 }
  registry := (∅ : Registry).add ⟨"Greeting", fun _ _ => .ok (.finish .ok)⟩
  queue := ⟨defaultQueue, "memory://local/lifecycle-events"⟩

/-- The steps of a run that receives a greeting and is about to delete it. -/
def welcome : List Action :=
  [.callReceive, .received (.ok [greeting]), .push, .takeRaw 0, .decode 0, .offer 0,
    .takeDecoded 0, .start 0, .proceed 0, .callDelete 0]

/-- Where that run comes to. -/
def welcomed : Track × Pipeline :=
  (Pipeline.replay host ∅ (.initial host) (.initial host) welcome).get rfl

theorem welcomed_tracked : Pipeline.Tracked host welcomed.1 welcomed.2 :=
  have made : Pipeline.replay host ∅ (.initial host) (.initial host) welcome = some welcomed :=
    (Option.some_get _).symm
  Pipeline.Tracked.initial.replay made

end Sample

theorem Pipeline.Tracked.acknowledgement_of_greeting :
    Pipeline.Tracked Sample.host Sample.welcomed.1 Sample.welcomed.2 ∧
    ∃ before e, Sample.welcomed.1.log = before ++ [(some 0, .deleteCalled e)] ∧
      Sample.host.Served Sample.greeting e (lifeOf 0 before) := by
  have split : Sample.welcomed.1.log = Sample.welcomed.1.log.dropLast ++
      [(some 0, .deleteCalled _)] := rfl
  obtain ⟨-, -, deletes, -⟩ := Sample.welcomed_tracked.acknowledgement
  obtain ⟨n, m, tag, received, -, -, served, -⟩ := deletes _ _ _ _ split
  cases tag
  obtain rfl : Sample.greeting = m := Option.some.inj received
  exact ⟨Sample.welcomed_tracked, _, _, split, served⟩

end Courier
