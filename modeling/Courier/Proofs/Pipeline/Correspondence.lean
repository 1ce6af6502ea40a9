import Courier.Proofs.Pipeline.Tracking
import Mathlib.Data.List.Forall2

/-!
# A track corresponds to its pipeline

At every place of the pipeline the track has the deliveries of just the messages or envelopes that
are there, and what has been observed of a delivery is determined by its place. A worker that is to
delete a message, for instance, has a delivery whose handler was called and has ended well.

## Main definitions

* `Activity.Leads`: what a handler does from one activity to another.
* `Delivery.Handled`: the handler of a delivery was called and has come to an activity.
* `Worker.Carries`: a worker has a delivery.
* `Delivery.Ended`: the ways in which a delivery ends.
* `Track.Matches`: a track corresponds to a pipeline.

## Main results

* `Pipeline.Tracked.matches`: in a run, the track corresponds to the pipeline.
* `Pipeline.Tracked.observed`, `Pipeline.Observed.tracked`: the log of a track has the events of the
  run, and every run has a track.
-/

namespace Courier

/-- A handler of the envelope `e` comes from one activity to another, and `deeds` is what it has
written to the log and sent on the way. -/
inductive Activity.Leads (e : Envelope) : Activity → List Event → Activity → Prop
  | refl (a) : Leads e a [] a
  | sleep {a deeds ms next} (h : Leads e a deeds (.sleep ms next)) : Leads e a deeds next
  | note {a deeds entry next} (h : Leads e a deeds (.note entry next)) :
      Leads e a (deeds ++ [.noted e entry]) next
  | draw {a deeds next} (id) (h : Leads e a deeds (.draw next)) : Leads e a deeds (next id)
  | send {a deeds q m next} (r) (h : Leads e a deeds (.send q m next)) :
      Leads e a (deeds ++ [.sent e q m r]) (next r)

namespace Delivery

/-- The delivery has been decoded. -/
structure Read (d : Delivery) (e : Envelope) : Prop where
  accepted : Envelope.ofReceived d.message = .ok e
  events_eq : d.events = [.buffered d.message, .decoded e]

/-- The handler of the delivery has been called and has come to the activity `a`; `later` has been
observed since. -/
structure Handled (c : Consumer) (d : Delivery) (e : Envelope) (a : Activity)
    (later : List Event) : Prop where
  accepted : Envelope.ofReceived d.message = .ok e
  called : ∃ b cancelled first deeds, c.registry.find? e.typeName = some b ∧
    b.start (.ofEnvelope e cancelled) e = .ok first ∧ first.Leads e deeds a ∧
    d.events = [.buffered d.message, .decoded e, .started e] ++ deeds ++ later
  routed : ∃ route, d.routes = [route]

end Delivery

/-- The worker has the delivery in its hand. -/
def Worker.Carries (c : Consumer) : Worker → Delivery → Prop
  | .idle, _ | .stopped, _ => False
  | .decoding m, d => m = d.message ∧ d.events = [.buffered d.message] ∧ d.routes = []
  | .offering e, d => d.Read e ∧ d.routes = []
  | .dispatching e, d => d.Read e ∧ ∃ route, d.routes = [route]
  | .handling e a, d => d.Handled c e a []
  | .acknowledging e, d => d.Handled c e (.finish .ok) [.returned e .ok]
  | .deleting e, d => d.Handled c e (.finish .ok) [.returned e .ok, .deleteCalled e]

/-- Whether a worker has something in its hand. -/
def Worker.isBusy : Worker → Bool
  | .idle | .stopped => false
  | _ => true

/-- Whether a worker takes something into its hand with a step. -/
def Action.isTake : Action → Bool
  | .takeDecoded _ | .takeRaw _ => true
  | _ => false

/-- What a worker has in its hand. -/
def Worker.Has (c : Consumer) (s : Worker) : Option Delivery → Prop
  | none => s = .idle ∨ s = .stopped
  | some d => s.Carries c d

/-- The run is done with the delivery. -/
inductive Delivery.Ended (c : Consumer) : Delivery → Prop
  /-- The delivery was given up before it was decoded. -/
  | unread {d : Delivery} (before : d.events = [] ∨ d.events = [.buffered d.message])
      (unrouted : d.routes = []) : Ended c d
  | malformed {d : Delivery} {error} (refused : Envelope.ofReceived d.message = .error error)
      (events_eq : d.events = [.buffered d.message, .malformed d.message error])
      (unrouted : d.routes = []) : Ended c d
  /-- The delivery was in the decoded buffer when the run ended. -/
  | undispatched {d : Delivery} {e} (read : d.Read e) (routed : d.routes = [.buffer]) :
      Ended c (d.observe [.settled e])
  | released {d : Delivery} {s : Worker} {e cancelled w a events} (carried : s.Carries c d)
      (step : s.Release c cancelled w e a events) : Ended c (d.observe (events ++ [.settled e]))

/-- The track has the deliveries of the messages at every place. -/
structure Track.Matches (c : Consumer) (t : Track) (p : Pipeline) : Prop where
  hand : t.hand.map (·.message) = p.poller.held ∧ ∀ d ∈ t.hand, d.events = [] ∧ d.routes = []
  raw : t.raw.map (·.message) = p.raw ∧
    ∀ d ∈ t.raw, d.events = [.buffered d.message] ∧ d.routes = []
  workers : List.Forall₂ (Worker.Has c) p.workers t.workers
  decoded : List.Forall₂ (fun d e => d.Read e ∧ d.routes = [.buffer]) t.decoded p.decoded
  ended : ∀ d ∈ t.ended, d.Ended c

/-- Two steps of a computation end well only if each of them does. -/
theorem of_bind_eq_ok {ε α β : Type} {x : Except ε α} {f : α → Except ε β} {b : β}
    (h : x >>= f = .ok b) : ∃ a, x = .ok a ∧ f a = .ok b := by
  cases x with
  | error error => cases h
  | ok a => exact ⟨a, rfl, h⟩

theorem Envelope.ofReceived_eq_ok {m : Received} {e : Envelope}
    (h : Envelope.ofReceived m = .ok e) :
    e.id = m.id ∧ e.receipt = m.receipt ∧ e.receiveCount = m.receiveCount := by
  unfold Envelope.ofReceived at h
  obtain ⟨payload, -, h⟩ := of_bind_eq_ok h
  obtain ⟨typeName, -, h⟩ := of_bind_eq_ok h
  obtain ⟨headers, -, h⟩ := of_bind_eq_ok h
  cases h
  exact ⟨rfl, rfl, rfl⟩

/-! ### Steps of a worker -/

namespace Delivery

variable {c : Consumer} {d : Delivery} {e : Envelope} {a : Activity}

theorem Handled.lead {a' : Activity} {deeds : List Event} (h : d.Handled c e a [])
    (ha : ∀ first before, Activity.Leads e first before a →
      Activity.Leads e first (before ++ deeds) a') :
    (d.observe deeds).Handled c e a' [] where
  accepted := h.accepted
  called := by
    obtain ⟨b, cancelled, first, before, registered, started, leads, events_eq⟩ := h.called
    refine ⟨b, cancelled, first, before ++ deeds, registered, started, ha _ _ leads, ?_⟩
    simp [observe, events_eq]
  routed := h.routed

theorem Handled.later {later : List Event} (h : d.Handled c e a later) (events : List Event) :
    (d.observe events).Handled c e a (later ++ events) where
  accepted := h.accepted
  called := by
    obtain ⟨b, cancelled, first, deeds, registered, started, leads, events_eq⟩ := h.called
    refine ⟨b, cancelled, first, deeds, registered, started, leads, ?_⟩
    simp [observe, events_eq]
  routed := h.routed

theorem Read.handled {b : Binding} {cancelled : Bool} (h : d.Read e)
    (routed : ∃ route, d.routes = [route])
    (registered : c.registry.find? e.typeName = some b)
    (started : b.start (.ofEnvelope e cancelled) e = .ok a) :
    (d.observe [.started e]).Handled c e a [] where
  accepted := h.accepted
  called := ⟨b, cancelled, a, [], registered, started, .refl a, by simp [observe, h.events_eq]⟩
  routed := routed

end Delivery

namespace Worker

variable {c : Consumer} {d : Delivery}

theorem Advance.carries {cancelled : Bool} {w : Nat} {e : Envelope} {a : Action} {s s' : Worker}
    {events : List Event} (h : Advance c cancelled w e a s events s') (hd : s.Carries c d) :
    s'.Carries c (d.observe events) := by
  cases h with
  | start registered started => exact hd.1.handled hd.2 registered started
  | sleep ms next => exact hd.lead fun first before leads => by simpa using leads.sleep
  | note entry next => exact hd.lead fun first before leads => leads.note
  | draw id next => exact hd.lead fun first before leads => by simpa using leads.draw id
  | send q m r next => exact hd.lead fun first before leads => leads.send r
  | succeed => exact hd.later [.returned e .ok]
  | callDelete => exact hd.later [.deleteCalled e]

theorem Carries.decode {m : Received} {e : Envelope} (hd : (Worker.decoding m).Carries c d)
    (read : Envelope.ofReceived m = .ok e) :
    (Worker.offering e).Carries c (d.observe [.decoded e]) := by
  obtain ⟨rfl, events_eq, unrouted⟩ := hd
  exact ⟨⟨read, by simp [Delivery.observe, events_eq]⟩, unrouted⟩

theorem Carries.reject {m : Received} {error : EnvelopeError}
    (hd : (Worker.decoding m).Carries c d) (unread : Envelope.ofReceived m = .error error) :
    (d.observe [.malformed m error]).Ended c := by
  obtain ⟨rfl, events_eq, unrouted⟩ := hd
  exact .malformed unread (by simp [Delivery.observe, events_eq]) unrouted

theorem has_idle {o : Option Delivery} : Worker.Has c .idle o ↔ o = none := by
  cases o <;> simp [Worker.Has, Carries]

theorem Has.exists_delivery {s : Worker} {o : Option Delivery} (h : s.Has c o)
    (busy : s.isBusy = true) : ∃ d, o = some d ∧ s.Carries c d := by
  cases o with
  | none =>
    rcases h with rfl | rfl
    · cases busy
    · cases busy
  | some d => exact ⟨d, rfl, h⟩

theorem Advance.busy {cancelled : Bool} {w : Nat} {e : Envelope} {a : Action} {s s' : Worker}
    {events : List Event} (h : Advance c cancelled w e a s events s') :
    s.isBusy = true := by
  cases h <;> rfl

theorem Advance.isTake_eq_false {cancelled : Bool} {w : Nat} {e : Envelope} {a : Action}
    {s s' : Worker} {events : List Event} (h : Advance c cancelled w e a s events s') :
    a.isTake = false := by
  cases h <;> rfl

theorem Release.isTake_eq_false {cancelled : Bool} {w : Nat} {e : Envelope} {a : Action}
    {s : Worker} {events : List Event} (h : Release c cancelled w e a s events) :
    a.isTake = false := by
  cases h <;> rfl

theorem Release.busy {cancelled : Bool} {w : Nat} {e : Envelope} {a : Action} {s : Worker}
    {events : List Event} (h : Release c cancelled w e a s events) :
    s.isBusy = true := by
  cases h <;> rfl

end Worker

/-! ### Steps of a pipeline -/

namespace Track

variable {c : Consumer} {t : Track} {p : Pipeline}

private theorem forall₂_getElem? {α β : Type} {R : α → β → Prop} {xs : List α} {ys : List β}
    (h : List.Forall₂ R xs ys) {i : Nat} {x : α} (hx : xs[i]? = some x) :
    ∃ y, ys[i]? = some y ∧ R x y := by
  induction h generalizing i with
  | nil => simp at hx
  | @cons a b xs ys hab h ih =>
    cases i with
    | zero => exact ⟨b, rfl, by simpa [← Option.some.inj hx] using hab⟩
    | succ i => exact ih (by simpa using hx)

private theorem forall₂_set {α β : Type} {R : α → β → Prop} {xs : List α} {ys : List β}
    (h : List.Forall₂ R xs ys) (i : Nat) {x : α} {y : β} (hxy : R x y) :
    List.Forall₂ R (xs.set i x) (ys.set i y) := by
  induction h generalizing i with
  | nil => exact .nil
  | cons hab h ih =>
    cases i with
    | zero => exact .cons hxy h
    | succ i => exact .cons hab (ih i)

theorem Matches.carried (h : t.Matches c p) {w : Nat} {s : Worker}
    (at_ : p.workers[w]? = some s) (busy : s.isBusy = true) :
    ∃ d, t.workers[w]? = some (some d) ∧ s.Carries c d := by
  obtain ⟨o, ho, has⟩ := forall₂_getElem? h.workers at_
  obtain ⟨d, rfl, hd⟩ := has.exists_delivery busy
  exact ⟨d, ho, hd⟩

theorem mem_deliveries_of_worker {w : Nat} {d : Delivery}
    (hw : t.workers[w]? = some (some d)) : d ∈ t.deliveries := by
  have mem : d ∈ t.workers.reduceOption :=
    List.reduceOption_mem_iff.2 (List.mem_of_getElem? hw)
  simp [deliveries, mem]

private theorem exists_of_forall₂ {α β : Type} {R : α → β → Prop} {xs : List α} {ys : List β}
    (h : List.Forall₂ R xs ys) {y : β} (hy : y ∈ ys) : ∃ x ∈ xs, R x y := by
  induction h with
  | nil => nomatch hy
  | @cons a b xs ys hab h ih =>
    rcases List.mem_cons.1 hy with rfl | hy
    · exact ⟨a, List.mem_cons_self, hab⟩
    · obtain ⟨x, hx, hxy⟩ := ih hy
      exact ⟨x, List.mem_cons_of_mem a hx, hxy⟩

theorem Matches.exists_worker (h : t.Matches c p) {d : Delivery}
    (hd : d ∈ t.workers.reduceOption) : ∃ s ∈ p.workers, s.Carries c d := by
  obtain ⟨s, hs, has⟩ := exists_of_forall₂ h.workers (List.reduceOption_mem_iff.1 hd)
  exact ⟨s, hs, has⟩

theorem Matches.exists_envelope (h : t.Matches c p) {d : Delivery} (hd : d ∈ t.decoded) :
    ∃ e ∈ p.decoded, d.Read e ∧ d.routes = [.buffer] :=
  exists_of_forall₂ h.decoded.flip hd

theorem Matches.idle (h : t.Matches c p) {w : Nat} (at_ : p.workers[w]? = some .idle) :
    t.workers[w]? = some none := by
  obtain ⟨o, ho, has⟩ := forall₂_getElem? h.workers at_
  rw [ho, Worker.has_idle.1 has]

theorem follow_of_worker {w : Nat} {d : Delivery} {a : Action} (x : Transition)
    (ha : a.worker? = some w) (other : a.isTake = false)
    (hw : t.workers[w]? = some (some d)) : t.follow a x = t.work w d a x := by
  cases a with
  | takeRaw v | takeDecoded v => cases other
  | decode | offer | start | proceed | drawn | sent | callDelete | deleted | interrupt
  | stopWorker => simp only [follow, ha, hw]
  | _ => cases ha

theorem follow_advance {w : Nat} {e : Envelope} {a : Action} {s s' : Worker} {d : Delivery}
    {events : List Event} (u : Unsettled) (at_ : p.workers[w]? = some s)
    (h : s.Advance c p.cancelled w e a events s') (hw : t.workers[w]? = some (some d)) :
    t.follow a ⟨u, p.setWorker w s', events⟩ =
      (t.note d.about events).setWorker w (some (d.observe events)) := by
  have hs : (p.setWorker w s').workers[w]? = some s' := Pipeline.getElem?_setWorker at_ s'
  rw [follow_of_worker _ h.worker? h.isTake_eq_false hw]
  cases h <;> simp only [work, hs]

theorem follow_release {w : Nat} {e : Envelope} {a : Action} {s : Worker} {d : Delivery}
    {events : List Event} (u : Unsettled) (at_ : p.workers[w]? = some s)
    (h : s.Release c p.cancelled w e a events) (hw : t.workers[w]? = some (some d)) :
    t.follow a (Pipeline.release u p w e events) =
      (t.note d.about (events ++ [.settled e])).close w (d.observe (events ++ [.settled e])) := by
  have hs : (p.setWorker w .idle).workers[w]? = some .idle := Pipeline.getElem?_setWorker at_ .idle
  rw [follow_of_worker _ h.worker? h.isTake_eq_false hw]
  cases h <;> simp only [work, Pipeline.release, hs]

theorem follow_decode {w : Nat} {m : Received} {e : Envelope} {d : Delivery} (u : Unsettled)
    (at_ : p.workers[w]? = some (.decoding m)) (hw : t.workers[w]? = some (some d)) :
    t.follow (.decode w) ⟨u, p.setWorker w (.offering e), [.decoded e]⟩ =
      (t.note d.about [.decoded e]).setWorker w (some (d.observe [.decoded e])) := by
  rw [follow_of_worker (a := .decode w) _ rfl rfl hw]
  simp only [work, Pipeline.getElem?_setWorker at_]

theorem follow_reject {w : Nat} {m : Received} {error : EnvelopeError} {d : Delivery}
    (u : Unsettled) (at_ : p.workers[w]? = some (.decoding m))
    (hw : t.workers[w]? = some (some d)) :
    t.follow (.decode w) ⟨u, p.setWorker w .idle, [.malformed m error]⟩ =
      (t.note d.about [.malformed m error]).close w (d.observe [.malformed m error]) := by
  rw [follow_of_worker (a := .decode w) _ rfl rfl hw]
  simp only [work, Pipeline.getElem?_setWorker at_]

theorem follow_enqueue {w : Nat} {e : Envelope} {d : Delivery} (u : Unsettled)
    (at_ : p.workers[w]? = some (.offering e)) (hw : t.workers[w]? = some (some d)) :
    t.follow (.offer w) ⟨u, { p with decoded := p.decoded ++ [e] }.setWorker w .idle, []⟩ =
      t.enqueue w (d.via .buffer) := by
  have hs : ({ p with decoded := p.decoded ++ [e] }.setWorker w .idle).workers[w]? = some .idle :=
    Pipeline.getElem?_setWorker at_ .idle
  rw [follow_of_worker (a := .offer w) _ rfl rfl hw]
  simp only [work, hs, note_nil, Delivery.observe_nil]

theorem follow_keep {w : Nat} {e : Envelope} {d : Delivery} (u : Unsettled)
    (at_ : p.workers[w]? = some (.offering e)) (hw : t.workers[w]? = some (some d)) :
    t.follow (.offer w) ⟨u, p.setWorker w (.dispatching e), []⟩ =
      t.setWorker w (some (d.via .inline)) := by
  rw [follow_of_worker (a := .offer w) _ rfl rfl hw]
  simp only [work, Pipeline.getElem?_setWorker at_, note_nil, Delivery.observe_nil]

theorem follow_stopWorker {w : Nat} (u : Unsettled) (hw : t.workers[w]? = some none) :
    t.follow (.stopWorker w) ⟨u, p.setWorker w .stopped, []⟩ = t := by
  simp only [follow, Action.worker?, hw, note_nil]

/-! ### The track corresponds to the pipeline -/

private theorem Matches.carry (h : t.Matches c p) (w : Nat) {s : Worker} {d : Delivery}
    (hd : s.Carries c d) (n : Option Nat) (events : List Event) :
    ((t.note n events).setWorker w (some d)).Matches c (p.setWorker w s) :=
  { h with workers := forall₂_set h.workers w hd }

private theorem Matches.close (h : t.Matches c p) (w : Nat) {d : Delivery} (hd : d.Ended c)
    (n : Option Nat) (events : List Event) :
    ((t.note n events).close w d).Matches c (p.setWorker w .idle) :=
  { h with
    workers := forall₂_set h.workers w (Or.inl rfl)
    ended := by
      intro d' hd'
      rcases List.mem_append.1 hd' with hd' | hd'
      · exact h.ended d' hd'
      · rwa [List.mem_singleton.1 hd'] }

/-- The hand of the poller is empty, unless it is delivering. -/
private theorem Matches.hand_eq_nil (h : t.Matches c p) (empty : p.poller.held = []) :
    t.hand = [] := by
  have hand := h.hand.1
  rw [empty] at hand
  exact List.map_eq_nil_iff.1 hand

/-- The hand of a poller that is delivering is not empty. -/
theorem Matches.hand_of_delivering (h : t.Matches c p) {m : Received} {rest : List Received}
    (at_ : p.poller = .delivering (m :: rest)) : ∃ d ds, t.hand = d :: ds := by
  have hand := h.hand.1
  rw [at_] at hand
  obtain ⟨d, ds, split, -⟩ := List.map_eq_cons_iff.1 hand
  exact ⟨d, ds, split⟩

private theorem Matches.receive (h : t.Matches c p) (at_ : p.poller = .receiving)
    (u : Unsettled) (ms : List Received) {poller : Poller} (holds : poller.held = ms) :
    (t.follow (.received (.ok ms)) ⟨u, { p with poller }, [.received ms]⟩).Matches c
      { p with poller } where
  hand := by
    have empty : t.hand = [] := h.hand_eq_nil (by rw [at_]; rfl)
    simp only [follow, empty, List.nil_append, Delivery.map_message_ofBatch, holds, true_and]
    intro d hd
    obtain ⟨x, -, rfl⟩ := List.mem_map.1 hd
    exact ⟨rfl, rfl⟩
  raw := h.raw
  workers := h.workers
  decoded := h.decoded
  ended := h.ended

private theorem Matches.push (h : t.Matches c p) {m : Received} {rest : List Received}
    (at_ : p.poller = .delivering (m :: rest)) (u : Unsettled) :
    (t.follow .push ⟨u, { p with poller := Pipeline.delivering rest, raw := p.raw ++ [m] },
      [.buffered m]⟩).Matches c
      { p with poller := Pipeline.delivering rest, raw := p.raw ++ [m] } := by
  obtain ⟨hand, fresh⟩ := h.hand
  rw [at_] at hand
  obtain ⟨d, ds, rfl_, rfl, hds⟩ := List.map_eq_cons_iff.1 hand
  simp only [follow, rfl_]
  refine { h with hand := ⟨?_, ?_⟩, raw := ⟨?_, ?_⟩ }
  · rw [Pipeline.held_delivering]
    exact hds
  · exact fun d' hd' => fresh d' (rfl_ ▸ List.mem_cons_of_mem d hd')
  · simp [h.raw.1, Delivery.observe]
  · intro d' hd'
    rcases List.mem_append.1 hd' with hd' | hd'
    · exact h.raw.2 d' hd'
    · obtain ⟨events, routes⟩ := fresh d (rfl_ ▸ List.mem_cons_self)
      rw [List.mem_singleton.1 hd']
      simp [Delivery.observe, events, routes]

private theorem Matches.takeRaw (h : t.Matches c p) (w : Nat) {m : Received}
    {rest : List Received} (first : p.raw = m :: rest) (u : Unsettled) :
    (t.follow (.takeRaw w) ⟨u, { p with raw := rest }.setWorker w (.decoding m), []⟩).Matches c
      ({ p with raw := rest }.setWorker w (.decoding m)) := by
  obtain ⟨raw, buffered⟩ := h.raw
  rw [first] at raw
  obtain ⟨d, ds, split, rfl, hds⟩ := List.map_eq_cons_iff.1 raw
  obtain ⟨events, routes⟩ := buffered d (split ▸ List.mem_cons_self)
  simp only [follow, split, note_nil]
  refine { h with raw := ⟨hds, fun d' hd' => ?_⟩, workers := forall₂_set h.workers w ?_ }
  · exact buffered d' (split ▸ List.mem_cons_of_mem d hd')
  · exact ⟨rfl, events, routes⟩

private theorem Matches.takeDecoded (h : t.Matches c p) (w : Nat) {e : Envelope}
    {rest : List Envelope} (first : p.decoded = e :: rest) (u : Unsettled) :
    (t.follow (.takeDecoded w)
        ⟨u, { p with decoded := rest }.setWorker w (.dispatching e), []⟩).Matches c
      ({ p with decoded := rest }.setWorker w (.dispatching e)) := by
  have decoded := h.decoded
  rw [first] at decoded
  obtain ⟨d, ds, ⟨read, routed⟩, hds, split⟩ := List.forall₂_cons_right_iff.1 decoded
  simp only [follow, split, note_nil]
  exact { h with decoded := hds, workers := forall₂_set h.workers w ⟨read, _, routed⟩ }

private theorem Matches.enqueue (h : t.Matches c p) (w : Nat) {e : Envelope} {d : Delivery}
    (hd : (Worker.offering e).Carries c d) :
    (t.enqueue w (d.via .buffer)).Matches c
      ({ p with decoded := p.decoded ++ [e] }.setWorker w .idle) where
  hand := h.hand
  raw := h.raw
  workers := forall₂_set h.workers w (Or.inl rfl)
  decoded := by
    obtain ⟨⟨accepted, events_eq⟩, unrouted⟩ := hd
    refine List.rel_append h.decoded (.cons ⟨⟨accepted, events_eq⟩, ?_⟩ .nil)
    simp [Delivery.via, unrouted]
  ended := h.ended

private theorem Matches.keep (h : t.Matches c p) (w : Nat) {e : Envelope} {d : Delivery}
    (hd : (Worker.offering e).Carries c d) :
    (t.setWorker w (some (d.via .inline))).Matches c (p.setWorker w (.dispatching e)) := by
  obtain ⟨⟨accepted, events_eq⟩, unrouted⟩ := hd
  refine { h with workers := forall₂_set h.workers w ⟨⟨accepted, events_eq⟩, .inline, ?_⟩ }
  simp [Delivery.via, unrouted]

private theorem Matches.stopWorker (h : t.Matches c p) {w : Nat}
    (hw : t.workers[w]? = some none) : t.Matches c (p.setWorker w .stopped) := by
  obtain ⟨bound, empty⟩ := List.getElem?_eq_some_iff.1 hw
  have workers := forall₂_set h.workers w (x := .stopped) (y := none) (Or.inr rfl)
  rw [← empty, List.set_getElem_self] at workers
  exact { h with workers }

private theorem Matches.stopPoller (h : t.Matches c p) (u : Unsettled) (events : List Event) :
    (t.follow .stopPoller ⟨u, { p with poller := .stopped }, events⟩).Matches c
      { p with poller := .stopped } where
  hand := ⟨rfl, nofun⟩
  raw := h.raw
  workers := h.workers
  decoded := h.decoded
  ended := by
    intro d hd
    rcases List.mem_append.1 hd with hd | hd
    · exact h.ended d hd
    · exact .unread (.inl (h.hand.2 d hd).1) (h.hand.2 d hd).2

private theorem ended_of_decoded {ds : List Delivery} {es : List Envelope}
    (h : List.Forall₂ (fun d e => Delivery.Read d e ∧ d.routes = [.buffer]) ds es)
    (rest : List Event) :
    ∀ d ∈ List.zipWith (fun d ev => d.observe [ev]) ds (es.map .settled ++ rest), d.Ended c := by
  induction h with
  | nil => simp
  | cons hd h ih =>
    intro d' hd'
    rcases List.mem_cons.1 hd' with rfl | hd'
    · exact .undispatched hd.1 hd.2
    · exact ih d' hd'

private theorem Matches.finish (h : t.Matches c p) (u : Unsettled) :
    (t.follow .finish (Pipeline.finish u p)).Matches c (Pipeline.finish u p).pipeline where
  hand := h.hand
  raw := ⟨rfl, nofun⟩
  workers := h.workers
  decoded := .nil
  ended := by
    intro d hd
    simp only [follow, Track.finish, Pipeline.finish, List.cons_append, List.tail_cons,
      List.mem_append, or_assoc] at hd
    rcases hd with hd | hd | hd
    · exact h.ended d hd
    · exact .unread (.inr (h.raw.2 d hd).1) (h.raw.2 d hd).2
    · exact ended_of_decoded h.decoded [.stopped] d hd

theorem Matches.follow (h : t.Matches c p) {u : Unsettled} {a : Action} {x : Transition}
    (hx : Pipeline.Moves c u p a x) : (t.follow a x).Matches c x.pipeline := by
  cases hx with
  | cancel => exact { h with }
  | callReceive at_ | receiveFailed at_ | resume at_ =>
    exact { h with hand := ⟨h.hand.1.trans (by rw [at_]; rfl), h.hand.2⟩ }
  | receiveNothing at_ => exact h.receive at_ u [] rfl
  | receive at_ => exact h.receive at_ u _ rfl
  | push at_ room => exact h.push at_ u
  | stopPoller running shutdown => exact h.stopPoller u _
  | takeDecoded idle first running => exact h.takeDecoded _ first u
  | takeRaw idle none_ first running => exact h.takeRaw _ first u
  | stopWorker idle shutdown =>
    rw [follow_stopWorker u (h.idle idle)]
    exact h.stopWorker (h.idle idle)
  | decode at_ read =>
    obtain ⟨d, hw, hd⟩ := h.carried at_ rfl
    rw [follow_decode _ at_ hw]
    exact h.carry _ (hd.decode read) _ _
  | reject at_ unread =>
    obtain ⟨d, hw, hd⟩ := h.carried at_ rfl
    rw [follow_reject u at_ hw]
    exact h.close _ (hd.reject unread) _ _
  | enqueue at_ room =>
    obtain ⟨d, hw, hd⟩ := h.carried at_ rfl
    rw [follow_enqueue u at_ hw]
    exact h.enqueue _ hd
  | keep at_ full =>
    obtain ⟨d, hw, hd⟩ := h.carried at_ rfl
    rw [follow_keep u at_ hw]
    exact h.keep _ hd
  | advance at_ step =>
    obtain ⟨d, hw, hd⟩ := h.carried at_ step.busy
    rw [follow_advance u at_ step hw]
    exact h.carry _ (step.carries hd) _ _
  | release at_ step =>
    obtain ⟨d, hw, hd⟩ := h.carried at_ step.busy
    rw [follow_release u at_ step hw]
    exact h.close _ (.released hd step) _ _
  | finish complete => exact h.finish u

theorem Matches.events_follow (h : t.Matches c p) {u : Unsettled} {a : Action} {x : Transition}
    (hx : Pipeline.Moves c u p a x) : (t.follow a x).events = t.events ++ x.events := by
  by_cases last : a = .finish
  · subst last
    have len : t.decoded.length = p.decoded.length := h.decoded.length_eq
    have eq : x = Pipeline.finish u p := by
      cases hx with
      | finish complete => rfl
      | advance at_ step | release at_ step => cases step
    rw [eq]
    simp [Track.follow, Track.finish, Track.events, Pipeline.finish, List.map_snd_zip, len]
  · exact Track.events_follow t x last

private theorem has_replicate (c : Consumer) (n : Nat) :
    List.Forall₂ (Worker.Has c) (List.replicate n .idle) (List.replicate n none) := by
  induction n with
  | zero => exact .nil
  | succ n ih => exact .cons (Or.inl rfl) ih

end Track

/-- In a run, the track corresponds to the pipeline. -/
theorem Pipeline.Tracked.matches {c : Consumer} {t : Track} {p : Pipeline}
    (h : Tracked c t p) : t.Matches c p := by
  induction h with
  | initial =>
    exact ⟨⟨rfl, nofun⟩, ⟨rfl, nofun⟩, Track.has_replicate c _, .nil, nofun⟩
  | step h hx ih => exact ih.follow (moves_of_step hx)

theorem Pipeline.Tracked.extend {c : Consumer} {u : Unsettled} {t : Track} {p : Pipeline}
    {a : Action} {x : Transition} (h : Tracked c t p) (hx : p.step c u a = some x) :
    ∃ t', Tracked c t' x.pipeline ∧ t'.events = t.events ++ x.events :=
  ⟨_, h.step hx, h.matches.events_follow (moves_of_step hx)⟩

/-- The events of a track are those that are observed of its run. -/
theorem Pipeline.Tracked.observed {c : Consumer} {t : Track} {p : Pipeline} (h : Tracked c t p) :
    Observed c t.events p := by
  induction h with
  | initial => exact .initial
  | step h hx ih =>
    rw [h.matches.events_follow (moves_of_step hx)]
    exact ih.step hx

/-- Every run has a track. -/
theorem Pipeline.Observed.tracked {c : Consumer} {events : List Event} {p : Pipeline}
    (h : Observed c events p) : ∃ t, Tracked c t p ∧ t.events = events := by
  induction h with
  | initial => exact ⟨_, .initial, rfl⟩
  | step h hx ih =>
    obtain ⟨t, ht, rfl⟩ := ih
    exact ht.extend hx

end Courier
