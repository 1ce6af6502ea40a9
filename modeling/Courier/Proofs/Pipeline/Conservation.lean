import Courier.Proofs.Pipeline.Course

/-!
# Conservation inside a pipeline

A run keeps account of the messages that it receives: none is lost on the way through the buffers,
none is there twice, and as long as the run goes on none is given up without a reason of its own.

## Main definitions

* `Delivery.Fate`, `Delivery.fate`: what becomes of a delivery.
* `Event.entering?`: the message that enters the raw buffer.
* `Track.Kept`: nothing has been discarded.
* `Track.Intact`: nothing has been lost or doubled.

## Main results

* `Pipeline.Tracked.received_eq`: the deliveries are those of the messages that receive calls have
  returned.
* `Pipeline.Tracked.inOrder`: the messages enter the raw buffer in the order of their receipt.
* `Pipeline.Tracked.kept`: nothing is discarded before the run is asked to end.
* `Pipeline.Tracked.intact`: nothing is lost or doubled in a run.
-/

namespace Courier

/-- The message that enters the raw buffer. -/
def Event.entering? : Event → Option Received
  | .buffered m => some m
  | _ => none

/-- Whether a message is decoded, successfully or not. -/
def Event.isDecoding : Event → Bool
  | .decoded _ | .malformed _ _ => true
  | _ => false

/-- Whether a handler is called. -/
def Event.isStart : Event → Bool
  | .started _ => true
  | _ => false

namespace Delivery

/-- What becomes of a delivery with which a run is done. -/
inductive Fate where
  | acknowledged
  /-- The message stays in the queue after a failure. -/
  | abandoned
  | malformed
  /-- The run has ended before anything else. -/
  | discarded
  deriving DecidableEq

end Delivery

/-- The fate that an event decides. -/
def Event.fate? : Event → Option Delivery.Fate
  | .malformed _ _ => some .malformed
  | .failed _ _ => some .abandoned
  | .deleted _ (.ok ()) => some .acknowledged
  | .deleted _ (.error _) => some .abandoned
  | _ => none

/-- Whether an event decides the fate of its delivery. -/
def Event.isDeciding (ev : Event) : Bool :=
  ev.fate?.isSome

/-- The fate of a delivery. -/
def Delivery.fate (d : Delivery) : Fate :=
  (d.events.findSome? Event.fate?).getD .discarded

/-- Nothing has been discarded, unless the run is to end. -/
def Track.Kept (t : Track) (p : Pipeline) : Prop :=
  p.cancelled = false → ∀ d ∈ t.ended, d.fate ≠ .discarded

/-! ### Receipt and buffering -/

/-- The messages that were received have entered the raw buffer in order, as far as the poller does
not have them in its hand. A poller that has stopped may have given some up. -/
def InOrder (events : List Event) (poller : Poller) : Prop :=
  ∃ rest, events.filterMap Event.entering? ++ rest = events.flatMap Event.batch ∧
    (rest = poller.held ∨ poller = .stopped)

/-- No message arrives and none enters the raw buffer. -/
def IsQuiet (events : List Event) : Prop :=
  events.flatMap Event.batch = [] ∧ events.filterMap Event.entering? = []

theorem Worker.Advance.isQuiet {c : Consumer} {cancelled : Bool} {w : Nat} {e : Envelope}
    {a : Action} {s s' : Worker} {events : List Event}
    (h : Advance c cancelled w e a s events s') : IsQuiet events := by
  cases h <;> exact ⟨rfl, rfl⟩

theorem Worker.Release.isQuiet {c : Consumer} {cancelled : Bool} {w : Nat} {e : Envelope}
    {a : Action} {s : Worker} {events : List Event} (h : Release c cancelled w e a s events) :
    IsQuiet (events ++ [.settled e]) := by
  cases h <;> exact ⟨rfl, rfl⟩

theorem Poller.isQuiet_farewell (poller : Poller) : IsQuiet poller.farewell := by
  cases poller <;> exact ⟨rfl, rfl⟩

theorem Pipeline.isQuiet_finish (u : Unsettled) (p : Pipeline) :
    IsQuiet (finish u p).events := by
  constructor
  · simp [finish, Event.batch]
  · refine List.filterMap_eq_nil_iff.2 fun ev mem => ?_
    simp only [finish, List.cons_append, List.mem_cons, List.mem_append, List.mem_map,
      List.not_mem_nil, or_false] at mem
    rcases mem with rfl | ⟨e, -, rfl⟩ | rfl <;> rfl

namespace InOrder

variable {events new : List Event} {poller poller' : Poller}

theorem quiet (h : InOrder events poller) (hq : IsQuiet new) (same : poller'.held = poller.held)
    (running : poller ≠ .stopped ∨ poller' = poller) : InOrder (events ++ new) poller' := by
  obtain ⟨rest, split, place⟩ := h
  refine ⟨rest, ?_, ?_⟩
  · simp [hq.1, hq.2, split]
  · rcases place with rfl | stopped
    · exact .inl same.symm
    · rcases running with running | rfl
      · exact absurd stopped running
      · exact .inr stopped

theorem stop (h : InOrder events poller) (hq : IsQuiet new) :
    InOrder (events ++ new) .stopped := by
  obtain ⟨rest, split, -⟩ := h
  exact ⟨rest, by simp [hq.1, hq.2, split], .inr rfl⟩

theorem receive (h : InOrder events .receiving) {ms : List Received} (held : poller'.held = ms) :
    InOrder (events ++ [.received ms]) poller' := by
  obtain ⟨rest, split, rfl | stopped⟩ := h
  · refine ⟨ms, ?_, .inl held.symm⟩
    simp only [Poller.held, List.append_nil] at split
    simp [split, Event.entering?, Event.batch]
  · cases stopped

theorem push {m : Received} {rest : List Received}
    (h : InOrder events (.delivering (m :: rest))) :
    InOrder (events ++ [.buffered m]) (Pipeline.delivering rest) := by
  obtain ⟨_, split, rfl | stopped⟩ := h
  · refine ⟨rest, ?_, .inl (Pipeline.held_delivering rest).symm⟩
    simp only [Poller.held] at split
    simp [← split, Event.entering?, Event.batch]
  · cases stopped

theorem step {c : Consumer} {u : Unsettled} {p : Pipeline} {a : Action} {x : Transition}
    (h : InOrder events p.poller) (hx : Pipeline.Moves c u p a x) :
    InOrder (events ++ x.events) x.pipeline.poller := by
  cases hx with
  | callReceive at_ | receiveFailed at_ | resume at_ =>
    exact h.quiet ⟨rfl, rfl⟩ (by rw [at_]; rfl) (.inl (by rw [at_]; nofun))
  | receiveNothing at_ | receive at_ =>
    rw [at_] at h
    exact h.receive rfl
  | push at_ room =>
    rw [at_] at h
    exact h.push
  | stopPoller running shutdown =>
    exact h.stop p.poller.isQuiet_farewell
  | finish complete => exact h.quiet (Pipeline.isQuiet_finish u p) rfl (.inr rfl)
  | advance at_ step => exact h.quiet step.isQuiet rfl (.inr rfl)
  | release at_ step => exact h.quiet step.isQuiet rfl (.inr rfl)
  | _ => exact h.quiet ⟨rfl, rfl⟩ rfl (.inr rfl)

end InOrder

theorem Pipeline.Moves.batch_eq {c : Consumer} {u : Unsettled} {p : Pipeline} {a : Action}
    {x : Transition} (h : Moves c u p a x) : x.events.flatMap Event.batch = a.batch := by
  cases h with
  | receive at_ => exact List.append_nil _
  | stopPoller running shutdown => exact p.poller.isQuiet_farewell.1
  | finish complete => exact (isQuiet_finish u p).1
  | advance at_ step => exact step.isQuiet.1.trans (by cases step <;> rfl)
  | release at_ step => exact step.isQuiet.1.trans (by cases step <;> rfl)
  | _ => rfl

/-! ### Nothing is discarded -/

/-- A delivery of which a deciding event was observed is not discarded. -/
theorem Delivery.fate_ne_discarded {d : Delivery} {ev : Event} (mem : ev ∈ d.events)
    (decides : ev.isDeciding) : d.fate ≠ .discarded := by
  cases found : d.events.findSome? Event.fate? with
  | none =>
    rw [Event.isDeciding, List.findSome?_eq_none_iff.1 found ev mem] at decides
    cases decides
  | some f =>
    obtain ⟨ev', -, decided⟩ := List.exists_of_findSome?_eq_some found
    rw [Delivery.fate, found, Option.getD_some]
    rintro rfl
    unfold Event.fate? at decided
    split at decided <;> cases decided

/-- As long as the run goes on, a worker lets go of a delivery only when its fate is decided. -/
theorem Worker.Release.decides {c : Consumer} {w : Nat} {e : Envelope} {a : Action} {s : Worker}
    {events : List Event} (h : Release c false w e a s events) :
    ∃ ev ∈ events, ev.isDeciding := by
  cases h with
  | unregistered | unreadable => exact ⟨_, List.mem_singleton_self _, rfl⟩
  | fail | panic => exact ⟨_, List.mem_cons_of_mem _ (List.mem_singleton_self _), rfl⟩
  | answered r =>
    refine ⟨_, List.mem_singleton_self _, ?_⟩
    cases r <;> rfl
  | interruptStart shutdown | interruptHandler a shutdown | interruptAcknowledging shutdown
  | interruptDeleting shutdown => cases shutdown

namespace Track

variable {c : Consumer} {t : Track} {p : Pipeline}

private theorem Kept.of_ended {t' : Track} {p' : Pipeline} (h : t.Kept p)
    (ended : t'.ended = t.ended) (cancelled : p'.cancelled = p.cancelled) : t'.Kept p' := by
  rw [Kept, ended, cancelled]
  exact h

private theorem Kept.close (h : t.Kept p) {w : Nat} {d : Delivery} {n : Option Nat}
    {events : List Event} (hd : p.cancelled = false → d.fate ≠ .discarded) :
    ((t.note n events).close w d).Kept (p.setWorker w .idle) := by
  intro running d' hd'
  rcases List.mem_append.1 hd' with hd' | hd'
  · exact h running d' hd'
  · rw [List.mem_singleton.1 hd']
    exact hd running

/-- A step of the pipeline discards nothing, unless the run is to end. -/
theorem Kept.follow (h : t.Kept p) (hm : t.Matches c p) {u : Unsettled} {a : Action}
    {x : Transition} (hx : Pipeline.Moves c u p a x) : (t.follow a x).Kept x.pipeline := by
  cases hx with
  | cancel => nofun
  | callReceive | receiveFailed | resume | receiveNothing | receive => exact h
  | push | takeDecoded | takeRaw =>
    refine h.of_ended ?_ rfl
    simp only [Track.follow]
    split <;> rfl
  | stopPoller running shutdown | stopWorker idle shutdown =>
    exact fun running => absurd running (by simp [shutdown])
  | decode at_ read =>
    obtain ⟨d, hw, hd⟩ := hm.carried at_ rfl
    rw [follow_decode _ at_ hw]
    exact h
  | reject at_ unread =>
    obtain ⟨d, hw, hd⟩ := hm.carried at_ rfl
    rw [follow_reject u at_ hw]
    exact h.close fun _ => Delivery.fate_ne_discarded
      (List.mem_append_right _ (List.mem_singleton_self _)) rfl
  | enqueue at_ room =>
    obtain ⟨d, hw, hd⟩ := hm.carried at_ rfl
    rw [follow_enqueue u at_ hw]
    exact h
  | keep at_ full =>
    obtain ⟨d, hw, hd⟩ := hm.carried at_ rfl
    rw [follow_keep u at_ hw]
    exact h
  | advance at_ step =>
    obtain ⟨d, hw, hd⟩ := hm.carried at_ step.busy
    rw [follow_advance u at_ step hw]
    exact h
  | release at_ step =>
    obtain ⟨d, hw, hd⟩ := hm.carried at_ step.busy
    rw [follow_release u at_ step hw]
    refine h.close fun running => ?_
    rw [running] at step
    obtain ⟨ev, mem, decides⟩ := step.decides
    exact Delivery.fate_ne_discarded
      (List.mem_append_right _ (List.mem_append_left _ mem)) decides
  | finish complete =>
    intro running
    simp [Pipeline.canFinish, show p.cancelled = false from running] at complete

end Track

namespace Pipeline

variable {c : Consumer} {t : Track} {p : Pipeline}

/-- The deliveries are those of the messages that receive calls have returned. -/
theorem Tracked.received_eq (h : Tracked c t p) : t.received = t.events.flatMap Event.batch := by
  induction h with
  | initial => rfl
  | step h hx ih =>
    have moves := moves_of_step hx
    rw [Track.received_follow, h.matches.events_follow moves, ih, List.flatMap_append,
      moves.batch_eq]

/-- The messages enter the raw buffer in the order of their receipt. -/
theorem Tracked.inOrder (h : Tracked c t p) : InOrder t.events p.poller := by
  induction h with
  | initial => exact ⟨[], rfl, .inl rfl⟩
  | step h hx ih =>
    rw [h.matches.events_follow (moves_of_step hx)]
    exact ih.step (moves_of_step hx)

/-- Nothing is discarded before the run is asked to end. -/
theorem Tracked.kept (h : Tracked c t p) : t.Kept p := by
  induction h with
  | initial => exact fun _ => nofun
  | step h hx ih => exact ih.follow h.matches (moves_of_step hx)

end Pipeline

/-! ### Once only -/

namespace Delivery

variable {c : Consumer} {d : Delivery}

/-- A delivery is decoded once at most, its handler is called once at most, its envelope comes to
the handler on one way only, and its fate is decided once at most. -/
structure Once (d : Delivery) : Prop where
  decoded : d.events.countP Event.isDecoding ≤ 1
  called : d.events.countP Event.isStart ≤ 1
  decided : d.events.countP Event.isDeciding ≤ 1
  routed : d.routes.length ≤ 1
  route : ∀ e, .started e ∈ d.events → ∃ route, d.routes = [route]

private theorem Course.routed_once (h : d.Course c) : d.routes.length ≤ 1 := by
  cases h with
  | unread events_eq unrouted | malformed refused events_eq unrouted => simp [unrouted]
  | declined accepted after events_eq routed => exact routed
  | called handled after =>
    obtain ⟨route, routed⟩ := handled.routed
    simp [routed]

private theorem Course.decided_once (h : d.Course c) : d.events.countP Event.isDeciding ≤ 1 := by
  cases h with
  | unread events_eq unrouted =>
    rcases events_eq with events_eq | events_eq <;> simp [events_eq, Event.isDeciding, Event.fate?]
  | malformed refused events_eq unrouted =>
    simp [events_eq, Event.isDeciding, Event.fate?]
  | declined accepted after events_eq routed =>
    cases after <;> simp [events_eq, List.countP_cons, Event.isDeciding, Event.fate?]
  | @called e a later handled after =>
    obtain ⟨b, cancelled, first, deeds, -, -, leads, events_eq⟩ := handled.called
    have before : [.buffered d.message, .decoded e, .started e].countP Event.isDeciding = 0 := rfl
    have between : deeds.countP Event.isDeciding = 0 := by
      refine List.countP_eq_zero.2 fun ev mem => ?_
      have phase : ev.phase = 3 := leads.phase_eq ev mem
      cases ev with
      | noted | sent => exact Bool.false_ne_true
      | _ => cases phase
    have once : later.countP Event.isDeciding ≤ 1 := by
      cases after with
      | answered r => cases r <;> simp [List.countP_cons, Event.isDeciding, Event.fate?]
      | _ => simp [List.countP_cons, Event.isDeciding, Event.fate?]
    rw [events_eq, List.countP_append, List.countP_append, before, between]
    omega

theorem Course.once (h : d.Course c) : d.Once where
  decoded := by
    refine h.countP_le_one (n := 1) (by decide) fun ev decoding => ?_
    unfold Event.isDecoding at decoding
    split at decoding <;> first | rfl | cases decoding
  called := by
    refine h.countP_le_one (n := 2) (by decide) fun ev start => ?_
    unfold Event.isStart at start
    split at start <;> first | rfl | cases start
  decided := h.decided_once
  routed := h.routed_once
  route e started := by
    obtain ⟨a, later, handled⟩ := h.handled_of_started started
    exact handled.routed

end Delivery

/-! ### The whole account -/

/-- Nothing is lost or doubled in a run. -/
structure Track.Intact (c : Consumer) (t : Track) (p : Pipeline) : Prop where
  /-- The log of the track has the events of the run. -/
  observed : Pipeline.Observed c t.events p
  /-- The track counts the messages that receive calls have returned. -/
  received : t.received = t.events.flatMap Event.batch
  /-- Each number belongs to one delivery at one place. -/
  numbers : (t.deliveries.map (·.number)).Perm (List.range t.received.length)
  /-- A delivery is one of the message that was received under its number. -/
  messages : ∀ d ∈ t.deliveries, t.received[d.number]? = some d.message
  /-- The pipeline has just the messages of the deliveries at every place. -/
  places : t.Matches c p
  /-- A delivery has the events that the log has under its number. -/
  lives : ∀ d ∈ t.deliveries, lifeOf d.number t.log = d.events
  once : ∀ d ∈ t.deliveries, d.Once
  kept : t.Kept p
  inOrder : InOrder t.events p.poller

/-- Nothing is lost or doubled in a run, wherever it has come to. -/
theorem Pipeline.Tracked.intact {c : Consumer} {t : Track} {p : Pipeline} (h : Tracked c t p) :
    t.Intact c p where
  observed := h.observed
  received := h.received_eq
  numbers := h.accounted.numbers_perm
  messages := h.accounted.getElem?_number
  places := h.matches
  lives := h.accounted.life_eq
  once d hd := (h.course d hd).once
  kept := h.kept
  inOrder := h.inOrder

end Courier
