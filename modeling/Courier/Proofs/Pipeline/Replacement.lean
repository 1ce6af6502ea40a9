import Courier.Proofs.Pipeline.Chronicle

/-!
# Deliveries that are replaced

For some of the deliveries of a run others are put in their place: they have the same records, but
the dispatch of such a delivery fails in another way. A run in which they are replaced can follow
the original one step by step. Buffers, poller and workers are in the same states, but for the
messages that are replaced. Only while the dispatch of such a message is under way there is a
difference: in one run the worker may have called a handler, and in the other it is about to begin.
When the dispatch fails, the other worker catches up.

## Main definitions

* `Delivery.swapped`: what is put in the place of a delivery.
* `Worker.Mirrors`, `Pipeline.Mirrors`: the state of a run in which deliveries are replaced.
* `Consumer.Stands`, `Remark.Allows`: when deliveries can be replaced.

## Main results

* `Pipeline.Mirrors.follow`: a step of a run is matched by steps of the other.
* `Pipeline.Mirrors.eq_of_kept`: when the states are equal.
-/

namespace Courier

/-! ### Deliveries with other messages -/

/-- The message of a delivery, or the one that is put in its place. -/
def Delivery.swapped (swap : Nat → Option Received) (d : Delivery) : Received :=
  (swap d.number).getD d.message

theorem Delivery.ofBatch_append (first : Nat) (ms ms' : List Received) :
    ofBatch first (ms ++ ms') = ofBatch first ms ++ ofBatch (first + ms.length) ms' := by
  rw [ofBatch, List.zipIdx_append, List.map_append]
  rfl

/-- The poller with other messages in its hand. -/
def Poller.withHand : Poller → List Received → Poller
  | .delivering _, ms => .delivering ms
  | s, _ => s

/-- The state of a worker and that of the same worker in a run in which some deliveries are
replaced. A dispatch that is replaced may be under way in one run only. -/
inductive Worker.Mirrors (swap : Nat → Option Received) :
    Worker → Option Delivery → Worker → Prop
  | free (s) : Mirrors swap s none s
  | kept {d : Delivery} (s) (kept : swap d.number = none) : Mirrors swap s (some d) s
  | decoding {d : Delivery} {m m'} (swapped : swap d.number = some m') :
      Mirrors swap (.decoding m) (some d) (.decoding m')
  | offering {d : Delivery} {e m' e'} (swapped : swap d.number = some m')
      (read : Envelope.ofReceived m' = .ok e') : Mirrors swap (.offering e) (some d) (.offering e')
  | dispatching {d : Delivery} {e m' e'} (swapped : swap d.number = some m')
      (read : Envelope.ofReceived m' = .ok e') :
      Mirrors swap (.dispatching e) (some d) (.dispatching e')
  | handling {d : Delivery} {e a m' e'} (swapped : swap d.number = some m')
      (read : Envelope.ofReceived m' = .ok e') :
      Mirrors swap (.handling e a) (some d) (.dispatching e')

namespace Worker.Mirrors

variable {swap : Nat → Option Received} {d : Delivery} {s s' : Worker}

/-- The worker of a delivery that is not replaced is in the same state. -/
theorem eq_of_kept (h : s.Mirrors swap (some d) s') (kept : swap d.number = none) : s' = s := by
  cases h with
  | kept => rfl
  | decoding other | offering other | dispatching other | handling other =>
    cases kept.symm.trans other

/-- Once a dispatch that is replaced has begun, the one that replaces it is about to begin. -/
theorem dispatching_of_swapped (h : s.Mirrors swap (some d) s') {m : Received}
    (swapped : swap d.number = some m) {e : Envelope} (held : s.envelope? = some e)
    (begun : s ≠ .offering e) :
    ∃ e', Envelope.ofReceived m = .ok e' ∧ s' = .dispatching e' := by
  cases h with
  | kept _ kept => cases swapped.symm.trans kept
  | decoding other => cases held
  | offering other =>
    cases held
    exact absurd rfl begun
  | dispatching other read | handling other read =>
    cases swapped.symm.trans other
    exact ⟨_, read, rfl⟩

end Worker.Mirrors

/-- The workers of a run with their deliveries, and those of a run in which some deliveries are
replaced. -/
structure Worker.AllMirror (swap : Nat → Option Received) (ws : List Worker)
    (ds : List (Option Delivery)) (ws' : List Worker) : Prop where
  length : ws'.length = ws.length
  each : ∀ (w : Nat) (s : Worker) (o : Option Delivery), ws[w]? = some s → ds[w]? = some o →
    ∃ s', ws'[w]? = some s' ∧ s.Mirrors swap o s'

theorem Worker.AllMirror.set {swap : Nat → Option Received} {ws ws' : List Worker}
    {ds : List (Option Delivery)} (h : AllMirror swap ws ds ws') (w : Nat) {s s' : Worker}
    {o : Option Delivery} (hs : s.Mirrors swap o s') :
    AllMirror swap (ws.set w s) (ds.set w o) (ws'.set w s') where
  length := by rw [List.length_set, List.length_set, h.length]
  each := by
    intro v r o' hr ho
    by_cases same : w = v
    · subst same
      have bound : w < ws.length := by simpa using (List.getElem?_eq_some_iff.1 hr).1
      have bound' : w < ds.length := by simpa using (List.getElem?_eq_some_iff.1 ho).1
      rw [List.getElem?_set_self bound] at hr
      rw [List.getElem?_set_self bound'] at ho
      cases hr
      cases ho
      exact ⟨s', List.getElem?_set_self (h.length.symm ▸ bound), hs⟩
    · rw [List.getElem?_set_ne same] at hr ho
      rw [List.getElem?_set_ne same]
      exact h.each v r o' hr ho

/-- The state of a run and that of a run in which some deliveries are replaced. -/
structure Pipeline.Mirrors (swap : Nat → Option Received) (t : Track) (p p' : Pipeline) :
    Prop where
  cancelled : p'.cancelled = p.cancelled
  finished : p'.finished = p.finished
  poller : p'.poller = p.poller.withHand (t.hand.map (·.swapped swap))
  raw : p'.raw = t.raw.map (·.swapped swap)
  decoded : List.Forall₂ (fun d e => Envelope.ofReceived (Delivery.swapped swap d) = .ok e)
    t.decoded p'.decoded
  workers : Worker.AllMirror swap p.workers t.workers p'.workers

/-- What is put in the place of the messages of a run. A delivery that is replaced keeps its record
and can be decoded, and so can what replaces it. The other dispatches begin as before. -/
structure Consumer.Stands (c c' : Consumer) (swap : Nat → Option Received)
    (received : List Received) : Prop where
  kept : ∀ n m e, received[n]? = some m → swap n = none → Envelope.ofReceived m = .ok e →
    ∀ cancelled, c'.dispatch cancelled e = c.dispatch cancelled e
  record : ∀ n m m', received[n]? = some m → swap n = some m' → m'.record = m.record
  readable : ∀ n m m', received[n]? = some m → swap n = some m' →
    (∃ e, Envelope.ofReceived m = .ok e) ∧ ∃ e', Envelope.ofReceived m' = .ok e'

/-- An entry does not hinder a replacement. A dispatch that is replaced neither succeeds nor is cut
off, and when it fails, then so does the one that replaces it. -/
def Remark.Allows (c' : Consumer) (swap : Nat → Option Received) (y : Remark) : Prop :=
  ∀ n m', y.number = some n → swap n = some m' →
    (∀ e, y.event ≠ .returned e .ok) ∧ (∀ e stage, y.event ≠ .interrupted e stage) ∧
    ∀ e error, y.event = .failed e error →
      ∀ e', Envelope.ofReceived m' = .ok e' → ∃ error', c'.Fails y.cancelled e' error'

namespace Delivery

variable {c c' : Consumer} {swap : Nat → Option Received} {received : List Received}
  {d : Delivery} {e e' : Envelope}

theorem swapped_of_kept (kept : swap d.number = none) : d.swapped swap = d.message := by
  rw [swapped, kept]
  rfl

theorem swapped_of_swapped {m : Received} (swapped : swap d.number = some m) :
    d.swapped swap = m := by
  rw [Delivery.swapped, swapped]
  rfl

end Delivery

namespace Consumer.Stands

variable {c c' : Consumer} {swap : Nat → Option Received} {received : List Received}
  {d : Delivery} {e e' : Envelope}

theorem shorten {more : List Received} (h : c.Stands c' swap (received ++ more)) :
    c.Stands c' swap received := by
  have there {n : Nat} {m : Received} (at_ : received[n]? = some m) :
      (received ++ more)[n]? = some m := by
    rwa [List.getElem?_append_left (List.getElem?_eq_some_iff.1 at_).1]
  exact ⟨fun n m e at_ => h.kept n m e (there at_), fun n m m' at_ => h.record n m m' (there at_),
    fun n m m' at_ => h.readable n m m' (there at_)⟩

theorem record_swapped (h : c.Stands c' swap received)
    (own : received[d.number]? = some d.message) :
    (d.swapped swap).record = d.message.record := by
  cases swapped : swap d.number with
  | none => rw [Delivery.swapped_of_kept swapped]
  | some m => rw [Delivery.swapped_of_swapped swapped, h.record _ _ _ own swapped]

theorem record_eq (h : c.Stands c' swap received) (own : received[d.number]? = some d.message)
    (read : Envelope.ofReceived d.message = .ok e)
    (read' : Envelope.ofReceived (d.swapped swap) = .ok e') : e'.record = e.record := by
  obtain ⟨id, receipt, -⟩ := Envelope.ofReceived_eq_ok read
  obtain ⟨id', receipt', -⟩ := Envelope.ofReceived_eq_ok read'
  have same := h.record_swapped own
  rw [Envelope.record, Envelope.record, id, receipt, id', receipt']
  exact same

end Consumer.Stands

namespace Worker

variable {c c' : Consumer} {cancelled : Bool} {w : Nat} {e : Envelope} {a : Action} {s s' : Worker}
  {events : List Event}

/-- A worker goes on in the same way with a consumer with which its dispatch begins in the same
way. -/
theorem Advance.alike (h : Advance c cancelled w e a s events s')
    (alike : c'.dispatch cancelled e = c.dispatch cancelled e) :
    Advance c' cancelled w e a s events s' := by
  cases h with
  | start registered started =>
    have begun := alike.trans (Consumer.dispatch_eq_ok.2 ⟨_, registered, started⟩)
    obtain ⟨b, registered, started⟩ := Consumer.dispatch_eq_ok.1 begun
    exact .start registered started
  | sleep ms next => exact .sleep ms next
  | note entry next => exact .note entry next
  | draw id next => exact .draw id next
  | send q m r next => exact .send q m r next
  | succeed => exact .succeed
  | callDelete => exact .callDelete

theorem Release.alike (h : Release c cancelled w e a s events)
    (alike : c'.dispatch cancelled e = c.dispatch cancelled e) :
    Release c' cancelled w e a s events := by
  cases h with
  | unregistered missing =>
    have begun := alike.trans (Consumer.dispatch_eq_error.2 (.inl ⟨missing, rfl⟩))
    obtain ⟨missing, -⟩ | ⟨b, refusal, -, -, eq⟩ := Consumer.dispatch_eq_error.1 begun
    · exact .unregistered missing
    · cases eq
  | unreadable registered refused =>
    have begun := alike.trans (Consumer.dispatch_eq_error.2 (.inr ⟨_, _, registered, refused, rfl⟩))
    obtain ⟨-, eq⟩ | ⟨b, refusal, registered, refused, eq⟩ := Consumer.dispatch_eq_error.1 begun
    · cases eq
    · cases eq
      exact .unreadable registered refused
  | interruptStart shutdown registered =>
    cases registered' : c'.registry.find? e.typeName with
    | some b => exact .interruptStart shutdown registered'
    | none =>
      have begun := alike.symm.trans (Consumer.dispatch_eq_error.2 (.inl ⟨registered', rfl⟩))
      obtain ⟨missing, -⟩ | ⟨b, refusal, -, -, eq⟩ := Consumer.dispatch_eq_error.1 begun
      · cases registered.symm.trans missing
      · cases eq
  | fail reason => exact .fail reason
  | panic reason => exact .panic reason
  | answered r => exact .answered r
  | interruptHandler a shutdown => exact .interruptHandler a shutdown
  | interruptAcknowledging shutdown => exact .interruptAcknowledging shutdown
  | interruptDeleting shutdown => exact .interruptDeleting shutdown

end Worker

/-! ### A step and its counterpart -/

namespace Pipeline.Mirrors

variable {c c' : Consumer} {swap : Nat → Option Received} {t : Track} {p p' : Pipeline}
  {u : Unsettled} {a : Action} {x : Transition} {w : Nat} {d : Delivery} {e : Envelope}
  {s s' : Worker} {events : List Event}

/-- Steps of the other run lead to the counterpart of a state. The exchange is the same, and `ms`
are the messages that they bring to the run. -/
def Matched (c' : Consumer) (swap : Nat → Option Received) (t : Track) (u : Unsettled)
    (p' : Pipeline) (x : Transition) (ms : List Received) : Prop :=
  ∃ events p'', Passes c' u p' events x.unsettled p'' ∧ Mirrors swap t x.pipeline p'' ∧
    events.filterMap Event.exchange? = x.events.filterMap Event.exchange? ∧
    events.flatMap Event.batch = ms

/-- One step of the other run leads there. -/
theorem Matched.one {a' : Action} {x' : Transition} {ms : List Received}
    (moves : Moves c' u p' a' x') (brought : a'.batch = ms) (table : x'.unsettled = x.unsettled)
    (mirrors : Mirrors swap t x.pipeline x'.pipeline)
    (same : x'.events.filterMap Event.exchange? = x.events.filterMap Event.exchange?) :
    Matched c' swap t u p' x ms :=
  ⟨_, _, table ▸ .one (step_iff.2 moves), mirrors, same, moves.batch_eq.trans brought⟩

theorem setWorker (h : Mirrors swap t p p') (w : Nat) {o : Option Delivery}
    (hs : s.Mirrors swap o s') :
    Mirrors swap (t.setWorker w o) (p.setWorker w s) (p'.setWorker w s') :=
  { h with workers := h.workers.set w hs }

/-- The log does not matter. -/
theorem note (h : Mirrors swap t p p') (n : Option Nat) (events : List Event) :
    Mirrors swap (t.note n events) p p' :=
  { h with }

theorem close (h : Mirrors swap t p p') (w : Nat) (d : Delivery) :
    Mirrors swap (t.close w d) (p.setWorker w .idle) (p'.setWorker w .idle) :=
  { h.setWorker w (.free .idle) with }

theorem length_raw (h : Mirrors swap t p p') (ht : t.Matches c p) :
    p'.raw.length = p.raw.length := by
  rw [h.raw, ← ht.raw.1, List.length_map, List.length_map]

theorem length_decoded (h : Mirrors swap t p p') (ht : t.Matches c p) :
    p'.decoded.length = p.decoded.length :=
  h.decoded.length_eq.symm.trans ht.decoded.length_eq

theorem idle (h : Mirrors swap t p p') (ht : t.Matches c p)
    (idle : p.workers[w]? = some .idle) : p'.workers[w]? = some .idle := by
  obtain ⟨s', at_, mirrors⟩ := h.workers.each w _ _ idle (ht.idle idle)
  cases mirrors
  exact at_

/-! #### Steps of the poller -/

theorem withHand_delivering {ds : List Delivery} {rest : List Received}
    (same : ds.map (·.message) = rest) :
    delivering (ds.map (·.swapped swap)) =
      (delivering rest).withHand (ds.map (·.swapped swap)) := by
  subst same
  cases ds <;> rfl

theorem exchange_farewell (s : Poller) : s.farewell.filterMap Event.exchange? = [] := by
  cases s <;> rfl

private theorem ready (h : Mirrors swap t p p') (at_ : p.poller = .ready ∨ p.poller = .receiving ∨
    p.poller = .pausing) : p'.poller = p.poller := by
  rw [h.poller]
  rcases at_ with at_ | at_ | at_ <;> rw [at_] <;> rfl

/-- The poller receives messages. -/
private theorem receive (h : Mirrors swap t p p') (at_ : p.poller = .receiving) {m : Received}
    {ms : List Received}
    (tracked : Tracked c (t.follow (.received (.ok (m :: ms)))
      ⟨u, { p with poller := .delivering (m :: ms) }, [.received (m :: ms)]⟩)
      { p with poller := .delivering (m :: ms) }) (ht : t.Matches c p)
    (stands : c.Stands c' swap (t.received ++ (m :: ms))) :
    Matched c' swap (t.follow (.received (.ok (m :: ms)))
      ⟨u, { p with poller := .delivering (m :: ms) }, [.received (m :: ms)]⟩) u p'
      ⟨u, { p with poller := .delivering (m :: ms) }, [.received (m :: ms)]⟩
      ((Delivery.ofBatch t.received.length (m :: ms)).map (·.swapped swap)) := by
  have empty : t.hand = [] := by
    have hand := ht.hand.1
    rw [at_] at hand
    exact List.map_eq_nil_iff.1 hand
  have at_' : p'.poller = .receiving := (h.ready (by simp [at_])).trans at_
  have hand : t.hand ++ Delivery.ofBatch t.received.length (m :: ms) =
      Delivery.ofBatch t.received.length (m :: ms) := by rw [empty, List.nil_append]
  have records : ((Delivery.ofBatch t.received.length (m :: ms)).map (·.swapped swap)).map
      Received.record = (m :: ms).map Received.record := by
    have batch := Delivery.map_message_ofBatch t.received.length (m :: ms)
    rw [← batch, List.map_map, List.map_map, batch]
    refine List.map_congr_left fun d hd => stands.record_swapped ?_
    refine tracked.accounted.getElem?_number d ?_
    have inside : d ∈ t.hand ++ Delivery.ofBatch t.received.length (m :: ms) := by rwa [hand]
    simp only [Track.deliveries, List.mem_append, or_assoc]
    exact .inl inside
  obtain ⟨m', ms', split⟩ : ∃ m' ms',
      (Delivery.ofBatch t.received.length (m :: ms)).map (·.swapped swap) = m' :: ms' :=
    ⟨_, _, rfl⟩
  rw [split] at records
  have moves : Moves c' u p' (.received (.ok (m' :: ms')))
      ⟨u, { p' with poller := .delivering (m' :: ms') }, [.received (m' :: ms')]⟩ := .receive at_'
  refine .one moves split.symm rfl { h with poller := ?_ } ?_
  · show Poller.delivering _ = Poller.delivering ((t.hand ++ _).map _)
    rw [hand, split]
  · simp only [List.filterMap_cons, Event.exchange?, List.filterMap_nil]
    rw [records]

/-- The poller puts a message into the raw buffer. -/
private theorem push (h : Mirrors swap t p p') (ht : t.Matches c p) {m : Received}
    {rest : List Received} (at_ : p.poller = .delivering (m :: rest))
    (room : p.raw.length < c.settings.rawCapacity) (settings : c'.settings = c.settings) :
    Matched c' swap (t.follow .push
      ⟨u, { p with poller := delivering rest, raw := p.raw ++ [m] }, [.buffered m]⟩) u p'
      ⟨u, { p with poller := delivering rest, raw := p.raw ++ [m] }, [.buffered m]⟩ [] := by
  have hand := ht.hand.1
  rw [at_] at hand
  obtain ⟨d, ds, split, rfl, same⟩ := List.map_eq_cons_iff.1 hand
  have at_' : p'.poller = .delivering (d.swapped swap :: ds.map (·.swapped swap)) := by
    rw [h.poller, at_, split]
    rfl
  have room' : p'.raw.length < c'.settings.rawCapacity := by
    rwa [h.length_raw ht, settings]
  refine .one (.push at_' room') rfl rfl ?_ rfl
  simp only [Track.follow, split]
  exact { h with
    poller := withHand_delivering same
    raw := by simp [h.raw, Delivery.swapped, Delivery.observe] }

private theorem stopPoller (h : Mirrors swap t p p') (running : p.poller ≠ .stopped)
    (shutdown : p.cancelled = true) :
    Matched c' swap (t.follow .stopPoller ⟨u, { p with poller := .stopped }, p.poller.farewell⟩) u
      p' ⟨u, { p with poller := .stopped }, p.poller.farewell⟩ [] := by
  have running' : p'.poller ≠ .stopped := by
    rw [h.poller]
    cases at_ : p.poller with
    | stopped => exact absurd at_ running
    | _ => nofun
  refine .one (.stopPoller running' (h.cancelled.trans shutdown)) rfl rfl
    { h with poller := rfl } ?_
  exact (exchange_farewell _).trans (exchange_farewell _).symm

/-! #### Steps of the workers -/

/-- A worker takes an envelope. -/
private theorem takeDecoded (h : Mirrors swap t p p') (ht : t.Matches c p) {rest : List Envelope}
    (idle : p.workers[w]? = some .idle) (first : p.decoded = e :: rest)
    (running : p.cancelled = false) :
    Matched c' swap (t.follow (.takeDecoded w)
      ⟨u, { p with decoded := rest }.setWorker w (.dispatching e), []⟩) u p'
      ⟨u, { p with decoded := rest }.setWorker w (.dispatching e), []⟩ [] := by
  have decoded := ht.decoded
  rw [first] at decoded
  obtain ⟨d, ds, ⟨read, -⟩, -, split⟩ := List.forall₂_cons_right_iff.1 decoded
  have decoded' := h.decoded
  rw [split] at decoded'
  obtain ⟨e', rest', read', others, first'⟩ := List.forall₂_cons_left_iff.1 decoded'
  refine .one (.takeDecoded (h.idle ht idle) first' (h.cancelled.trans running)) rfl rfl ?_ rfl
  simp only [Track.follow, split, Track.note_nil]
  have mirrors : (Worker.dispatching e).Mirrors swap (some d) (.dispatching e') := by
    cases swapped : swap d.number with
    | none =>
      rw [Delivery.swapped_of_kept swapped] at read'
      cases read.accepted.symm.trans read'
      exact .kept _ swapped
    | some m => exact .dispatching swapped (Delivery.swapped_of_swapped swapped ▸ read')
  exact { h with decoded := others, workers := h.workers.set w mirrors }

/-- A worker takes a message. -/
private theorem takeRaw (h : Mirrors swap t p p') (ht : t.Matches c p) {m : Received}
    {rest : List Received} (idle : p.workers[w]? = some .idle) (none_ : p.decoded = [])
    (first : p.raw = m :: rest) (running : p.cancelled = false) :
    Matched c' swap (t.follow (.takeRaw w)
      ⟨u, { p with raw := rest }.setWorker w (.decoding m), []⟩) u p'
      ⟨u, { p with raw := rest }.setWorker w (.decoding m), []⟩ [] := by
  have raw := ht.raw.1
  rw [first] at raw
  obtain ⟨d, ds, split, rfl, -⟩ := List.map_eq_cons_iff.1 raw
  have none' : p'.decoded = [] := by
    have size := h.length_decoded ht
    rw [none_] at size
    exact List.length_eq_zero_iff.1 size
  have first' : p'.raw = d.swapped swap :: ds.map (·.swapped swap) := by
    rw [h.raw, split]
    rfl
  refine .one (.takeRaw (h.idle ht idle) none' first' (h.cancelled.trans running)) rfl rfl ?_ rfl
  simp only [Track.follow, split, Track.note_nil]
  have mirrors : (Worker.decoding d.message).Mirrors swap (some d)
      (.decoding (d.swapped swap)) := by
    cases swapped : swap d.number with
    | none =>
      rw [Delivery.swapped_of_kept swapped]
      exact .kept _ swapped
    | some m =>
      rw [Delivery.swapped_of_swapped swapped]
      exact .decoding swapped
  exact { h with raw := rfl, workers := h.workers.set w mirrors }

/-- A worker stops. -/
private theorem stopWorker (h : Mirrors swap t p p') (ht : t.Matches c p)
    (idle : p.workers[w]? = some .idle) (shutdown : p.cancelled = true) :
    Matched c' swap (t.follow (.stopWorker w) ⟨u, p.setWorker w .stopped, []⟩) u p'
      ⟨u, p.setWorker w .stopped, []⟩ [] := by
  refine .one (.stopWorker (h.idle ht idle) (h.cancelled.trans shutdown)) rfl rfl ?_ rfl
  have unchanged : t.setWorker w none = t := by
    obtain ⟨bound, eq⟩ := List.getElem?_eq_some_iff.1 (ht.idle idle)
    rw [Track.setWorker, ← eq, List.set_getElem_self]
  rw [Track.follow_stopWorker u (ht.idle idle)]
  exact unchanged ▸ h.setWorker w (.free .stopped)

/-- The table does not tell a delivery from the one that is put in its place. -/
private theorem settle_eq {e' : Envelope} (same : e'.record = e.record) (u : Unsettled) :
    u.settleEnvelope e' = u.settleEnvelope e := by
  obtain ⟨id, receipt⟩ := Prod.ext_iff.1 same
  rw [Unsettled.settleEnvelope, Unsettled.settleEnvelope]
  exact congr (congrArg u.settle id) receipt

/-- A worker decodes its message. -/
private theorem decode (h : Mirrors swap t p p') {m : Received}
    (at_ : p.workers[w]? = some (.decoding m)) (hw : t.workers[w]? = some (some d))
    (hd : (Worker.decoding m).Carries c d) (stands : c.Stands c' swap t.received)
    (own : t.received[d.number]? = some d.message) (read : Envelope.ofReceived m = .ok e) :
    Matched c' swap (t.follow (.decode w)
      ⟨u.insert e.id e.receipt, p.setWorker w (.offering e), [.decoded e]⟩) u p'
      ⟨u.insert e.id e.receipt, p.setWorker w (.offering e), [.decoded e]⟩ [] := by
  rw [Track.follow_decode _ at_ hw]
  obtain ⟨rfl, -, -⟩ := hd
  obtain ⟨s', at_', mirrors⟩ := h.workers.each w _ _ at_ hw
  cases mirrors with
  | kept _ kept =>
    exact .one (.decode at_' read) rfl rfl ((h.note _ _).setWorker w (.kept _ kept)) rfl
  | @decoding _ _ m' swapped =>
    obtain ⟨-, e', read'⟩ := stands.readable _ _ _ own swapped
    have same : e'.record = e.record :=
      stands.record_eq own read (Delivery.swapped_of_swapped swapped ▸ read')
    obtain ⟨id, receipt⟩ := Prod.ext_iff.1 same
    refine .one (.decode at_' read') rfl ?_ ((h.note _ _).setWorker w (.offering swapped read')) rfl
    show u.insert _ _ = u.insert _ _
    exact congr (congrArg u.insert id) receipt

/-- A worker finds its message malformed, which is then not replaced. -/
private theorem reject (h : Mirrors swap t p p') {m : Received} {error : EnvelopeError}
    (at_ : p.workers[w]? = some (.decoding m)) (hw : t.workers[w]? = some (some d))
    (hd : (Worker.decoding m).Carries c d) (stands : c.Stands c' swap t.received)
    (own : t.received[d.number]? = some d.message)
    (unread : Envelope.ofReceived m = .error error) :
    Matched c' swap (t.follow (.decode w) ⟨u, p.setWorker w .idle, [.malformed m error]⟩) u p'
      ⟨u, p.setWorker w .idle, [.malformed m error]⟩ [] := by
  rw [Track.follow_reject u at_ hw]
  obtain ⟨rfl, -, -⟩ := hd
  obtain ⟨s', at_', mirrors⟩ := h.workers.each w _ _ at_ hw
  cases mirrors with
  | kept => exact .one (.reject at_' unread) rfl rfl ((h.note _ _).close w _) rfl
  | decoding swapped =>
    obtain ⟨⟨e, read⟩, -⟩ := stands.readable _ _ _ own swapped
    cases unread.symm.trans read

/-- A worker puts its envelope into the decoded buffer. -/
private theorem enqueue (h : Mirrors swap t p p') (ht : t.Matches c p)
    (at_ : p.workers[w]? = some (.offering e)) (hw : t.workers[w]? = some (some d))
    (hd : (Worker.offering e).Carries c d)
    (room : p.decoded.length < c.settings.decodedCapacity) (settings : c'.settings = c.settings) :
    Matched c' swap (t.follow (.offer w)
      ⟨u, { p with decoded := p.decoded ++ [e] }.setWorker w .idle, []⟩) u p'
      ⟨u, { p with decoded := p.decoded ++ [e] }.setWorker w .idle, []⟩ [] := by
  rw [Track.follow_enqueue u at_ hw]
  have room' : p'.decoded.length < c'.settings.decodedCapacity := by
    rwa [h.length_decoded ht, settings]
  obtain ⟨s', at_', mirrors⟩ := h.workers.each w _ _ at_ hw
  cases mirrors with
  | kept _ kept =>
    have read : Envelope.ofReceived (d.swapped swap) = .ok e :=
      Delivery.swapped_of_kept kept ▸ hd.1.accepted
    refine .one (.enqueue at_' room') rfl rfl ?_ rfl
    exact { h with
      decoded := List.rel_append h.decoded (.cons read .nil)
      workers := h.workers.set w (.free .idle) }
  | offering swapped read =>
    have read : Envelope.ofReceived (d.swapped swap) = .ok _ :=
      Delivery.swapped_of_swapped swapped ▸ read
    refine .one (.enqueue at_' room') rfl rfl ?_ rfl
    exact { h with
      decoded := List.rel_append h.decoded (.cons read .nil)
      workers := h.workers.set w (.free .idle) }

/-- A worker keeps its envelope. -/
private theorem keep (h : Mirrors swap t p p') (ht : t.Matches c p)
    (at_ : p.workers[w]? = some (.offering e)) (hw : t.workers[w]? = some (some d))
    (full : c.settings.decodedCapacity ≤ p.decoded.length) (settings : c'.settings = c.settings) :
    Matched c' swap (t.follow (.offer w) ⟨u, p.setWorker w (.dispatching e), []⟩) u p'
      ⟨u, p.setWorker w (.dispatching e), []⟩ [] := by
  rw [Track.follow_keep u at_ hw]
  have full' : c'.settings.decodedCapacity ≤ p'.decoded.length := by
    rwa [h.length_decoded ht, settings]
  obtain ⟨s', at_', mirrors⟩ := h.workers.each w _ _ at_ hw
  cases mirrors with
  | kept _ kept => exact .one (.keep at_' full') rfl rfl (h.setWorker w (.kept _ kept)) rfl
  | offering swapped read =>
    exact .one (.keep at_' full') rfl rfl (h.setWorker w (.dispatching swapped read)) rfl

/-- A worker goes on with its envelope. When its delivery is replaced, the other run waits. -/
private theorem advance (h : Mirrors swap t p p') {k : Nat} (at_ : p.workers[w]? = some s)
    (step : s.Advance c p.cancelled w e a events s') (hw : t.workers[w]? = some (some d))
    (hd : s.Carries c d) (stands : c.Stands c' swap t.received)
    (own : t.received[d.number]? = some d.message)
    (allows : ∀ ev ∈ events, Remark.Allows c' swap ⟨k, p.cancelled, some d.number, ev⟩) :
    Matched c' swap (t.follow a ⟨u, p.setWorker w s', events⟩) u p'
      ⟨u, p.setWorker w s', events⟩ [] := by
  rw [Track.follow_advance u at_ step hw]
  obtain ⟨r, at_', mirrors⟩ := h.workers.each w _ _ at_ hw
  cases swapped : swap d.number with
  | none =>
    have alike := stands.kept _ _ _ own swapped (hd.isOpen step.envelope_eq.1).accepted p.cancelled
    obtain rfl := mirrors.eq_of_kept swapped
    have step' := step.alike alike
    rw [← h.cancelled] at step'
    exact .one (.advance at_' step') (Action.batch_of_worker step.worker?) rfl
      ((h.note _ _).setWorker w (.kept _ swapped)) rfl
  | some m =>
    obtain ⟨e', read, rfl⟩ :=
      mirrors.dispatching_of_swapped swapped step.envelope_eq.1 (by rintro rfl; cases step)
    have waits {a : Activity} :
        Mirrors swap ((t.note d.about events).setWorker w (some (d.observe events)))
          (p.setWorker w (.handling e a)) p' := by
      have same : (Worker.handling e a).Mirrors swap (some (d.observe events)) (.dispatching e') :=
        .handling swapped read
      have h' := (h.note d.about events).setWorker w same
      rwa [setWorker_eq_self at_'] at h'
    cases step with
    | start | sleep | note | draw | send => exact ⟨[], p', .refl, waits, rfl, rfl⟩
    | succeed =>
      have never := (allows _ (List.mem_singleton_self _) _ m rfl swapped).1
      exact absurd rfl (never e)
    | callDelete => cases mirrors
    
/-- The dispatch that replaces one that has failed, and which has waited, fails as well, and leads
to the same. -/
private theorem fail (h : Mirrors swap t p p') {e' : Envelope} {error : DispatchError}
    (at_' : p'.workers[w]? = some (.dispatching e')) (fails : c'.Fails p'.cancelled e' error)
    (same : e'.record = e.record) (silent : ∀ ev ∈ events, ev.exchange? = none) :
    Matched c' swap ((t.note d.about (events ++ [.settled e])).close w
      (d.observe (events ++ [.settled e]))) u p' (Pipeline.release u p w e events) [] := by
  obtain ⟨before, passes, quiet⟩ := fails.passes u at_'
  rw [settle_eq same] at passes
  refine ⟨_, _, passes, (h.note _ _).close w _, ?_, ?_⟩
  · show _ = (events ++ [Event.settled e]).filterMap Event.exchange?
    rw [List.filterMap_append, List.filterMap_append, List.filterMap_eq_nil_iff.2 quiet,
      List.filterMap_eq_nil_iff.2 silent]
    rfl
  · rw [List.flatMap_append, List.flatMap_eq_nil_iff.2 fun ev mem =>
      Event.batch_of_exchange (quiet ev mem)]
    rfl

/-- A worker lets go of its envelope. -/
private theorem release (h : Mirrors swap t p p') {k : Nat} (at_ : p.workers[w]? = some s)
    (step : s.Release c p.cancelled w e a events) (hw : t.workers[w]? = some (some d))
    (hd : s.Carries c d) (stands : c.Stands c' swap t.received)
    (own : t.received[d.number]? = some d.message)
    (allows : ∀ ev ∈ events, Remark.Allows c' swap ⟨k, p.cancelled, some d.number, ev⟩) :
    Matched c' swap (t.follow a (Pipeline.release u p w e events)) u p'
      (Pipeline.release u p w e events) [] := by
  rw [Track.follow_release u at_ step hw]
  obtain ⟨r, at_', mirrors⟩ := h.workers.each w _ _ at_ hw
  have accepted := (hd.isOpen step.envelope_eq).accepted
  cases swapped : swap d.number with
  | none =>
    obtain rfl := mirrors.eq_of_kept swapped
    have step' := step.alike (stands.kept _ _ _ own swapped accepted p.cancelled)
    rw [← h.cancelled] at step'
    exact .one (.release at_' step') (Action.batch_of_worker step.worker?) rfl
      ((h.note _ _).close w _) rfl
  | some m =>
    obtain ⟨e', read, rfl⟩ :=
      mirrors.dispatching_of_swapped swapped step.envelope_eq (by rintro rfl; cases step)
    have same : e'.record = e.record :=
      stands.record_eq own accepted (Delivery.swapped_of_swapped swapped ▸ read)
    have fails {error : DispatchError} (mem : .failed e error ∈ events) :
        ∃ error', c'.Fails p'.cancelled e' error' :=
      h.cancelled ▸ (allows _ mem _ m rfl swapped).2.2 e error rfl e' read
    cases step with
    | unregistered | unreadable =>
      obtain ⟨error, failing⟩ := fails (List.mem_singleton_self _)
      exact h.fail at_' failing same (by simp [Event.exchange?])
    | fail reason | panic reason =>
      obtain ⟨error, failing⟩ := fails (List.mem_cons_of_mem _ (List.mem_singleton_self _))
      exact h.fail at_' failing same (by simp [Event.exchange?])
    | interruptStart | interruptHandler =>
      have never := (allows _ (List.mem_singleton_self _) _ m rfl swapped).2.1
      exact absurd rfl (never e _)
    | _ => cases mirrors

private theorem canFinish (h : Mirrors swap t p p') (ht : t.Matches c p)
    (complete : p.canFinish = true) : p'.canFinish = true := by
  simp only [Pipeline.canFinish, Bool.and_eq_true, decide_eq_true_eq, List.all_eq_true]
    at complete ⊢
  obtain ⟨⟨running, poller⟩, stopped⟩ := complete
  refine ⟨⟨by rwa [h.cancelled, h.finished], by rw [h.poller, poller]; rfl⟩, fun s' mem => ?_⟩
  obtain ⟨w, bound, rfl⟩ := List.mem_iff_getElem.1 mem
  have bound' : w < p.workers.length := h.workers.length ▸ bound
  have tracked : w < t.workers.length := ht.workers.length_eq ▸ bound'
  have halted : isStopped p.workers[w] = true := stopped _ (List.getElem_mem bound')
  obtain ⟨s', at_, mirrors⟩ := h.workers.each w _ _ (List.getElem?_eq_getElem bound')
    (List.getElem?_eq_getElem tracked)
  rw [Option.some.inj ((List.getElem?_eq_getElem bound).symm.trans at_)]
  generalize p.workers[w] = s at halted mirrors
  generalize t.workers[w] = o at mirrors
  cases mirrors with
  | free | kept => exact halted
  | _ => cases halted

/-- The records of the envelopes that are left are the same. -/
private theorem map_record (stands : c.Stands c' swap t.received) {ds : List Delivery}
    {es es' : List Envelope}
    (reads : List.Forall₂ (fun d e => d.Read e ∧ d.routes = [.buffer]) ds es)
    (reads' :
      List.Forall₂ (fun d e => Envelope.ofReceived (Delivery.swapped swap d) = .ok e) ds es')
    (own : ∀ d ∈ ds, t.received[d.number]? = some d.message) :
    es'.map Envelope.record = es.map Envelope.record := by
  induction reads generalizing es' with
  | nil =>
    cases reads'
    rfl
  | @cons d e ds es read reads ih =>
    cases reads' with
    | cons read' reads' =>
      rw [List.map_cons, List.map_cons,
        stands.record_eq (own d List.mem_cons_self) read.1.accepted read',
        ih reads' fun d' mem => own d' (List.mem_cons_of_mem d mem)]

/-- The run ends. -/
private theorem finish (h : Mirrors swap t p p') (ht : t.Matches c p)
    (stands : c.Stands c' swap t.received)
    (own : ∀ d ∈ t.decoded, t.received[d.number]? = some d.message)
    (complete : p.canFinish = true) :
    Matched c' swap (t.follow .finish (Pipeline.finish u p)) u p' (Pipeline.finish u p) [] := by
  have records := map_record stands ht.decoded h.decoded own
  have table (es : List Envelope) : es.foldl Unsettled.settleEnvelope u =
      (es.map Envelope.record).foldl (fun u r => u.settle r.1 r.2) u := by
    rw [List.foldl_map]
    rfl
  have silent (q : Pipeline) : (Pipeline.finish u q).events.filterMap Event.exchange? = [] := by
    refine List.filterMap_eq_nil_iff.2 fun ev mem => ?_
    simp only [Pipeline.finish, List.cons_append, List.mem_cons, List.mem_append, List.mem_map,
      List.not_mem_nil, or_false] at mem
    obtain rfl | ⟨e, -, rfl⟩ | rfl := mem <;> rfl
  refine .one (.finish (h.canFinish ht complete)) rfl ?_ ?_ ((silent p').trans (silent p).symm)
  · exact (table p'.decoded).trans ((congrArg _ records).trans (table p.decoded).symm)
  · exact { h with finished := rfl, raw := rfl, decoded := .nil }

/-- A step of a run is matched by steps of the other. -/
theorem follow (h : Mirrors swap t p p') (tracked : Tracked c t p) {k : Nat}
    (moves : Moves c u p a x) (settings : c'.settings = c.settings)
    (stands : c.Stands c' swap (t.follow a x).received)
    (allows : ∀ y ∈ t.remarks k p.cancelled a x, y.Allows c' swap) :
    Matched c' swap (t.follow a x) u p' x
      ((Delivery.ofBatch t.received.length a.batch).map (·.swapped swap)) := by
  have ht := tracked.matches
  have next : Tracked c (t.follow a x) x.pipeline := tracked.step (step_iff.2 moves)
  have before : c.Stands c' swap t.received := by
    rw [Track.received_follow] at stands
    exact stands.shorten
  have own {d : Delivery} (hd : d ∈ t.deliveries) : t.received[d.number]? = some d.message :=
    tracked.accounted.getElem?_number d hd
  have held {w : Nat} {d : Delivery} (hw : t.workers[w]? = some (some d)) : d ∈ t.deliveries := by
    have mem : d ∈ t.workers.reduceOption :=
      List.reduceOption_mem_iff.2 (List.mem_of_getElem? hw)
    simp [Track.deliveries, mem]
  cases moves with
  | cancel => exact .one .cancel rfl rfl { h with cancelled := rfl } rfl
  | callReceive at_ =>
    exact .one (.callReceive ((h.ready (.inl at_)).trans at_)) rfl rfl { h with poller := rfl } rfl
  | receiveFailed at_ =>
    exact .one (.receiveFailed ((h.ready (.inr (.inl at_))).trans at_)) rfl rfl
      { h with poller := rfl } rfl
  | receiveNothing at_ =>
    refine .one (.receiveNothing ((h.ready (.inr (.inl at_))).trans at_)) rfl rfl ?_ rfl
    exact { h with poller := rfl }
  | receive at_ =>
    rw [Track.received_follow] at stands
    exact h.receive at_ next ht stands
  | resume at_ =>
    exact .one (.resume ((h.ready (.inr (.inr at_))).trans at_)) rfl rfl
      { h with poller := rfl } rfl
  | push at_ room => exact h.push ht at_ room settings
  | stopPoller running shutdown => exact h.stopPoller running shutdown
  | takeDecoded idle first running => exact h.takeDecoded ht idle first running
  | takeRaw idle none_ first running => exact h.takeRaw ht idle none_ first running
  | stopWorker idle shutdown => exact h.stopWorker ht idle shutdown
  | decode at_ read =>
    obtain ⟨d, hw, hd⟩ := ht.carried at_ rfl
    exact h.decode at_ hw hd before (own (held hw)) read
  | reject at_ unread =>
    obtain ⟨d, hw, hd⟩ := ht.carried at_ rfl
    exact h.reject at_ hw hd before (own (held hw)) unread
  | enqueue at_ room =>
    obtain ⟨d, hw, hd⟩ := ht.carried at_ rfl
    exact h.enqueue ht at_ hw hd room settings
  | keep at_ full =>
    obtain ⟨d, hw, hd⟩ := ht.carried at_ rfl
    exact h.keep ht at_ hw full settings
  | advance at_ step =>
    obtain ⟨d, hw, hd⟩ := ht.carried at_ step.busy
    have log := congrArg Track.log (Track.follow_advance u at_ step hw)
    rw [Track.remarks_eq log] at allows
    rw [Action.batch_of_worker step.worker?]
    exact h.advance at_ step hw hd before (own (held hw)) fun ev mem =>
      allows ⟨k, _, _, ev⟩ (List.mem_map_of_mem mem)
  | release at_ step =>
    obtain ⟨d, hw, hd⟩ := ht.carried at_ step.busy
    have log := congrArg Track.log (Track.follow_release u at_ step hw)
    rw [Track.remarks_eq log] at allows
    rw [Action.batch_of_worker step.worker?]
    exact h.release at_ step hw hd before (own (held hw)) fun ev mem =>
      allows ⟨k, _, _, ev⟩ (List.mem_map_of_mem (List.mem_append_left _ mem))
  | finish complete =>
    exact h.finish ht before (fun d mem => own (by simp [Track.deliveries, mem])) complete

/-- As long as no delivery is pending that is replaced, the states are the same. -/
theorem eq_of_kept (h : Mirrors swap t p p') (ht : t.Matches c p)
    (kept : ∀ d ∈ t.pending, swap d.number = none) : p' = p := by
  have messages {ds : List Delivery} (mem : ∀ d ∈ ds, d ∈ t.pending) :
      ds.map (·.swapped swap) = ds.map (·.message) :=
    List.map_congr_left fun d hd => Delivery.swapped_of_kept (kept d (mem d hd))
  have poller : p'.poller = p.poller := by
    rw [h.poller, messages fun d hd => by simp [Track.pending, hd], ht.hand.1]
    cases p.poller <;> rfl
  have raw : p'.raw = p.raw := by
    rw [h.raw, messages fun d hd => by simp [Track.pending, hd], ht.raw.1]
  have decoded : p'.decoded = p.decoded := by
    refine List.ext_getElem (h.length_decoded ht) fun i bound bound' => ?_
    have tracked : i < t.decoded.length := ht.decoded.length_eq.symm ▸ bound'
    have read := (ht.decoded.get tracked bound').1.accepted
    have read' := h.decoded.get tracked bound
    rw [Delivery.swapped_of_kept (kept _ (by simp [Track.pending]))] at read'
    exact Except.ok.inj (read'.symm.trans read)
  have workers : p'.workers = p.workers := by
    refine List.ext_getElem h.workers.length fun w bound bound' => ?_
    have tracked : w < t.workers.length := ht.workers.length_eq ▸ bound'
    obtain ⟨s', at_, mirrors⟩ := h.workers.each w _ _ (List.getElem?_eq_getElem bound')
      (List.getElem?_eq_getElem tracked)
    rw [Option.some.inj ((List.getElem?_eq_getElem bound).symm.trans at_)]
    generalize p.workers[w] = s at mirrors ⊢
    cases hw : t.workers[w] with
    | none =>
      rw [hw] at mirrors
      cases mirrors
      rfl
    | some d =>
      rw [hw] at mirrors
      have inHand : d ∈ t.workers.reduceOption :=
        List.reduceOption_mem_iff.2 (hw ▸ List.getElem_mem tracked)
      exact mirrors.eq_of_kept (kept d (by simp [Track.pending, inHand]))
  obtain ⟨cancelled, poller', raw', decoded', workers', finished⟩ := p'
  cases p
  obtain rfl := h.cancelled
  obtain rfl := h.finished
  subst poller raw decoded workers
  rfl

end Pipeline.Mirrors

end Courier
