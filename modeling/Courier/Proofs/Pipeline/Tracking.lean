import Courier.Proofs.Pipeline.Transitions
import Mathlib.Data.List.ReduceOption

/-!
# Tracking the deliveries of a run

A backend may hand out the same message twice, under one identifier or even with one receipt, so
the contents of a pipeline do not say which delivery is which. Here the deliveries of a run are
numbered in the order of their receipt, and a `Track` keeps them at the places at which the
pipeline has their messages, each with what has been observed of it so far. A track only follows
the pipeline: its next state is computed from the step that the pipeline makes.

## Main definitions

* `Delivery`: a numbered delivery with its events.
* `Track`: the deliveries of a run by their places, and the log of the run.
* `Track.follow`: the track after a step.
* `Pipeline.Observed`: the runs of a consumer with what is observed of them.
* `Pipeline.Tracked`: the runs of a consumer together with their tracks.
* `Pipeline.replay`: the run that makes given steps.
-/

namespace Courier

/-- The messages that a receive call has returned. -/
def Event.batch : Event → List Received
  | .received ms => ms
  | _ => []

/-- The messages that a step brings to the run. -/
def Action.batch : Action → List Received
  | .received (.ok ms) => ms
  | _ => []

/-- The ways on which an envelope comes to its dispatch. -/
inductive Route where
  /-- Through the decoded buffer. -/
  | buffer
  /-- With the worker that has decoded it, the decoded buffer being full. -/
  | inline
  deriving DecidableEq

/-- A delivery of a run, with what has become of it so far. -/
structure Delivery where
  /-- Its number in the order of receipt, counted from zero. -/
  number : Nat
  message : Received
  /-- What has been observed of it, in order. -/
  events : List Event := []
  /-- The ways that its envelope has been given. -/
  routes : List Route := []

namespace Delivery

/-- Something has been observed of a delivery. -/
def observe (d : Delivery) (events : List Event) : Delivery :=
  { d with events := d.events ++ events }

@[simp] theorem observe_nil (d : Delivery) : d.observe [] = d := by
  simp [observe]

/-- The envelope of a delivery is given its way to the dispatch. -/
def via (d : Delivery) (route : Route) : Delivery :=
  { d with routes := d.routes ++ [route] }

/-- The deliveries of a batch, with numbers from `first` on. -/
def ofBatch (first : Nat) (ms : List Received) : List Delivery :=
  (ms.zipIdx first).map fun (m, n) => { number := n, message := m }

/-- The entry by which the log refers to a delivery. -/
def about (d : Delivery) : Option Nat :=
  some d.number

theorem map_message_ofBatch (first : Nat) (ms : List Received) :
    (ofBatch first ms).map (·.message) = ms := by
  simp [ofBatch, Function.comp_def]

end Delivery

/-- The deliveries of a run by their places. -/
structure Track where
  /-- The messages that receive calls have returned, in order. -/
  received : List Received := []
  /-- In the hand of the poller. -/
  hand : List Delivery := []
  /-- In the raw buffer. -/
  raw : List Delivery := []
  /-- In the hands of the workers. -/
  workers : List (Option Delivery)
  /-- In the decoded buffer. -/
  decoded : List Delivery := []
  /-- Those with which the run is done. -/
  ended : List Delivery := []
  /-- The events of the run in order, each with the number of the delivery that it is about. -/
  log : List (Option Nat × Event) := []

namespace Track

/-- The track of a run that begins. -/
def initial (c : Consumer) : Track where
  workers := List.replicate c.settings.workers none

/-- All deliveries. -/
def deliveries (t : Track) : List Delivery :=
  t.hand ++ t.raw ++ t.workers.reduceOption ++ t.decoded ++ t.ended

/-- The events of the run. -/
def events (t : Track) : List Event :=
  t.log.map (·.2)

/-- Adds events to the log. -/
def note (t : Track) (n : Option Nat) (events : List Event) : Track :=
  { t with log := t.log ++ events.map (n, ·) }

/-- Puts a delivery into the hand of a worker, or takes it away. -/
def setWorker (t : Track) (w : Nat) (d : Option Delivery) : Track :=
  { t with workers := t.workers.set w d }

/-- The worker `w` has put a delivery into the decoded buffer. -/
def enqueue (t : Track) (w : Nat) (d : Delivery) : Track :=
  { t.setWorker w none with decoded := t.decoded ++ [d] }

/-- The worker `w` is done with a delivery. -/
def close (t : Track) (w : Nat) (d : Delivery) : Track :=
  { t.setWorker w none with ended := t.ended ++ [d] }

/-- The worker `w` has made a step with its delivery. If it is idle afterwards, the delivery is in
the decoded buffer after an offer, and ended otherwise. -/
def work (t : Track) (w : Nat) (d : Delivery) (a : Action) (x : Transition) : Track :=
  let t := t.note d.about x.events
  let d := d.observe x.events
  match a, x.pipeline.workers[w]? with
  | .offer _, some .idle => t.enqueue w (d.via .buffer)
  | .offer _, _ => t.setWorker w (some (d.via .inline))
  | _, some .idle => t.close w d
  | _, _ => t.setWorker w (some d)

/-- The run has ended. The first of its last events is about the raw buffer, and then there is one
for each delivery in the decoded buffer. -/
def finish (t : Track) (events : List Event) : Track :=
  { t with
    raw := []
    decoded := []
    ended := t.ended ++ t.raw ++ List.zipWith (fun d ev => d.observe [ev]) t.decoded events.tail
    log := t.log ++ (none :: t.decoded.map Delivery.about ++ [none]).zip events }

/-- The track after a step of the pipeline. -/
def follow (t : Track) (a : Action) (x : Transition) : Track :=
  match a with
  | .received (.ok ms) =>
    { t.note none x.events with
      received := t.received ++ ms
      hand := t.hand ++ Delivery.ofBatch t.received.length ms }
  | .push =>
    match t.hand with
    | d :: rest =>
      { t.note d.about x.events with
        hand := rest
        raw := t.raw ++ [d.observe x.events] }
    | [] => t.note none x.events
  | .stopPoller => { t.note none x.events with hand := [], ended := t.ended ++ t.hand }
  | .takeRaw w =>
    match t.raw with
    | d :: rest => { t.note none x.events with raw := rest }.setWorker w (some d)
    | [] => t.note none x.events
  | .takeDecoded w =>
    match t.decoded with
    | d :: rest => { t.note none x.events with decoded := rest }.setWorker w (some d)
    | [] => t.note none x.events
  | .finish => t.finish x.events
  | a =>
    match a.worker? with
    | some w =>
      match t.workers[w]? with
      | some (some d) => t.work w d a x
      | _ => t.note none x.events
    | none => t.note none x.events

@[simp] theorem note_nil (t : Track) (n : Option Nat) : t.note n [] = t := by
  simp [note]

@[simp] theorem events_note (t : Track) (n : Option Nat) (events : List Event) :
    (t.note n events).events = t.events ++ events := by
  simp [Track.events, note, Function.comp_def]

theorem events_work (t : Track) (w : Nat) (d : Delivery) (a : Action) (x : Transition) :
    (t.work w d a x).events = t.events ++ x.events := by
  simp only [work]
  split <;> exact events_note t d.about x.events

theorem events_follow (t : Track) {a : Action} (x : Transition) (h : a ≠ .finish) :
    (t.follow a x).events = t.events ++ x.events := by
  unfold follow
  split
  · exact events_note t none x.events
  · split
    · exact events_note t _ x.events
    · exact events_note t none x.events
  · exact events_note t none x.events
  · split
    · exact events_note t none x.events
    · exact events_note t none x.events
  · split
    · exact events_note t none x.events
    · exact events_note t none x.events
  · exact absurd rfl h
  · split
    · split
      · exact events_work t _ _ _ x
      · exact events_note t none x.events
    · exact events_note t none x.events

theorem received_work (t : Track) (w : Nat) (d : Delivery) (a : Action) (x : Transition) :
    (t.work w d a x).received = t.received := by
  simp only [work]
  split <;> rfl

theorem received_follow (t : Track) (a : Action) (x : Transition) :
    (t.follow a x).received = t.received ++ a.batch := by
  cases a with
  | received r =>
    cases r with
    | ok ms => rfl
    | error e => exact (List.append_nil _).symm
  | push | takeRaw | takeDecoded =>
    simp only [follow, Action.batch, List.append_nil]
    split <;> rfl
  | cancel | callReceive | resume | stopPoller | finish => exact (List.append_nil _).symm
  | _ =>
    simp only [follow, Action.worker?, Action.batch, List.append_nil]
    split
    · exact received_work t _ _ _ x
    · rfl

end Track

namespace Pipeline

/-- A run of a consumer has come to the state `p`, and `events` have been observed of it. The table
of unsettled deliveries is any at every step, since other runs of the consumer share it. -/
inductive Observed (c : Consumer) : List Event → Pipeline → Prop
  | initial : Observed c [] (.initial c)
  | step {events p u a x} (h : Observed c events p) (hx : p.step c u a = some x) :
      Observed c (events ++ x.events) x.pipeline

/-- A run of a consumer has come to the state `p`, and `t` is its track. -/
inductive Tracked (c : Consumer) : Track → Pipeline → Prop
  | initial : Tracked c (.initial c) (.initial c)
  | step {t p u a x} (h : Tracked c t p) (hx : p.step c u a = some x) :
      Tracked c (t.follow a x) x.pipeline

/-- Makes the given steps, if they are possible, while no other run uses the table. -/
def replay (c : Consumer) : Unsettled → Track → Pipeline → List Action → Option (Track × Pipeline)
  | _, t, p, [] => some (t, p)
  | u, t, p, a :: as =>
    (p.step c u a).bind fun x => replay c x.unsettled (t.follow a x) x.pipeline as

theorem Tracked.replay {c : Consumer} {u : Unsettled} {t : Track} {p : Pipeline}
    {as : List Action} {last : Track × Pipeline} (h : Tracked c t p)
    (hr : replay c u t p as = some last) : Tracked c last.1 last.2 := by
  induction as generalizing u t p with
  | nil =>
    cases hr
    exact h
  | cons a as ih =>
    obtain ⟨x, hx, hr⟩ := Option.bind_eq_some_iff.1 hr
    exact ih (h.step hx) hr

end Pipeline

end Courier
