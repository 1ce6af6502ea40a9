import Courier.Proofs.Broker.Calls
import Courier.Proofs.Pipeline.Conservation
import Courier.System

/-!
# Runs beside the broker

What a run does beside the broker is listed here with the call that it makes, if any, and the steps
of its pipeline. A receive call that fails at once takes two steps of the pipeline, one that has to
look again takes none, and every other move is one step.

## Main definitions

* `Run.call?`: the call of the backend that a move makes.
* `Run.Makes`: the moves of a run.

## Main results

* `Run.makes_of_step`: a run makes only the listed moves.
* `Run.Makes.broker`: a move changes the broker by its call.
* `Run.Makes.tracked`: a move continues the run of the pipeline.
* `Run.Makes.batch`: the run receives what the broker delivers.
-/

namespace Courier

/-- The broker after a call, if there is one. -/
def Broker.afterSome (b : Broker) (now : Nat) (call : Option Call) : Broker :=
  call.elim b (b.after now)

/-- What a call does to messages, if there is one. -/
def Broker.incidentsOfSome (b : Broker) (now : Nat) (call : Option Call) : List Incident :=
  call.elim [] (b.incidents now)

namespace Run

/-- The call of the backend that a move makes. -/
def call? (c : Consumer) (r : Run) : Move → Option Broker.Call
  | .internal _ => none
  | .beginReceive => some (.beginReceive c.settings.receiveOptions)
  | .look => some (.check c.queue c.settings.receiveOptions)
  | .draw _ => some .draw
  | .send w =>
    match r.pipeline.workers[w]? with
    | some (.handling _ (.send q m _)) => some (.send q m)
    | _ => none
  | .delete w =>
    match r.pipeline.workers[w]? with
    | some (.deleting e) => some (.delete c.queue e.receipt)
    | _ => none

variable (c : Consumer) (now : Nat) (b : Broker) (u : Unsettled) (r : Run)

/-- The run after a step of its pipeline. -/
def stepped (x : Transition) (b' : Broker) : Effect :=
  ⟨b', x.unsettled, { r with pipeline := x.pipeline }, x.events⟩

/-- The moves of a run, each with what it leaves behind. -/
inductive Makes : Move → Effect → Prop
  | internal {a x} (internal : a.isInternal = true) (step : r.pipeline.step c u a = some x) :
      Makes (.internal a) (r.stepped x b)
  | beginReceive {x deadline b'} (step : r.pipeline.step c u .callReceive = some x)
      (begun : b.beginReceive now c.settings.receiveOptions = (.ok deadline, b')) :
      Makes .beginReceive ({ r with deadline }.stepped x b')
  | refuse {x y e b'} (step : r.pipeline.step c u .callReceive = some x)
      (refused : b.beginReceive now c.settings.receiveOptions = (.error (.refused e), b'))
      (answered : x.pipeline.step c u (.received (.error e)) = some y) :
      Makes .beginReceive (r.stepped y b')
  | lookAgain {b'} (nothing : b.check now c.queue c.settings.receiveOptions = (.ok [], b')) :
      Makes .look ⟨b', u, r, []⟩
  | find {batch b' x}
      (found : b.check now c.queue c.settings.receiveOptions = (.ok batch, b'))
      (step : r.pipeline.step c u (.received (.ok batch)) = some x) :
      Makes .look (r.stepped x b')
  | fail {e b' x}
      (failed : b.check now c.queue c.settings.receiveOptions = (.error (.refused e), b'))
      (step : r.pipeline.step c u (.received (.error e)) = some x) :
      Makes .look (r.stepped x b')
  | draw {w x} (step : r.pipeline.step c u (.drawn w b.mint.draw.1) = some x) :
      Makes (.draw w) (r.stepped x { b with mint := b.mint.draw.2 })
  | send {w e q m next x}
      (at_ : r.pipeline.workers[w]? = some (.handling e (.send q m next)))
      (step : r.pipeline.step c u (.sent w (b.send now q m).1) = some x) :
      Makes (.send w) (r.stepped x (b.send now q m).2)
  | delete {w e x} (at_ : r.pipeline.workers[w]? = some (.deleting e))
      (step : r.pipeline.step c u (.deleted w (b.delete c.queue e.receipt).1) = some x) :
      Makes (.delete w) (r.stepped x (b.delete c.queue e.receipt).2)

variable {c now b u r}

private theorem of_lift {a : Action} {b' : Broker} {effect : Effect}
    (h : r.lift c b' u a = some effect) :
    ∃ x, r.pipeline.step c u a = some x ∧ effect = r.stepped x b' := by
  obtain ⟨x, step, rfl⟩ := Option.map_eq_some_iff.1 h
  exact ⟨x, step, rfl⟩

private theorem makes_of_beginReceive {effect : Effect}
    (h : r.beginReceive c now b u = some effect) : Makes c now b u r .beginReceive effect := by
  obtain ⟨called, hc, h⟩ := Option.bind_eq_some_iff.1 h
  obtain ⟨x, step, rfl⟩ := of_lift hc
  split at h
  · next begun =>
    cases h
    exact .beginReceive step begun
  · next refused =>
    obtain ⟨y, answered, rfl⟩ := of_lift h
    exact .refuse step refused answered
  · cases h

private theorem makes_of_look {effect : Effect} (h : r.look c now b u = some effect) :
    Makes c now b u r .look effect := by
  simp only [look] at h
  split at h
  · split at h
    · next batch b' found =>
      split at h
      · next again =>
        cases h
        have nothing : batch = [] := by
          obtain ⟨next, again⟩ := Option.isSome_iff_exists.1 again
          simp only [Broker.nextLook] at again
          split at again
          · next empty => exact List.isEmpty_iff.1 empty.1
          · cases again
        exact .lookAgain (nothing ▸ found)
      · obtain ⟨x, step, rfl⟩ := of_lift h
        exact .find found step
    · next failed =>
      obtain ⟨x, step, rfl⟩ := of_lift h
      exact .fail failed step
    · cases h
  · cases h

/-- A run makes only the listed moves. -/
theorem makes_of_step {m : Move} {effect : Effect} (h : r.step c now b u m = some effect) :
    Makes c now b u r m effect := by
  cases m with
  | internal a =>
    simp only [step] at h
    split at h
    · next internal =>
      obtain ⟨x, step, rfl⟩ := of_lift h
      exact .internal internal step
    · cases h
  | beginReceive => exact makes_of_beginReceive h
  | look => exact makes_of_look h
  | draw w =>
    obtain ⟨x, step, rfl⟩ := of_lift h
    exact .draw step
  | send w =>
    simp only [step] at h
    split at h
    · next at_ =>
      obtain ⟨x, step, rfl⟩ := of_lift h
      exact .send at_ step
    · cases h
  | delete w =>
    simp only [step] at h
    split at h
    · next at_ =>
      obtain ⟨x, step, rfl⟩ := of_lift h
      exact .delete at_ step
    · cases h

/-- A move changes the broker by its call. -/
theorem Makes.broker {m : Move} {effect : Effect} (h : Makes c now b u r m effect) :
    effect.broker = b.afterSome now (r.call? c m) := by
  cases h with
  | internal | draw => rfl
  | beginReceive step begun =>
    exact (congrArg Prod.snd begun).symm
  | refuse step refused answered => exact (congrArg Prod.snd refused).symm
  | lookAgain looked | find looked | fail looked => exact (congrArg Prod.snd looked).symm
  | send at_ step | delete at_ step => simp only [call?, at_, stepped]; rfl

/-- A move continues the run of the pipeline, and its events are those of the steps. -/
theorem Makes.tracked {m : Move} {effect : Effect} (h : Makes c now b u r m effect) {t : Track}
    (ht : Pipeline.Tracked c t r.pipeline) :
    ∃ t', Pipeline.Tracked c t' effect.run.pipeline ∧
      t'.events = t.events ++ effect.events := by
  cases h with
  | internal internal step => exact ht.extend step
  | beginReceive step begun => exact ht.extend step
  | refuse step refused answered =>
    obtain ⟨t', ht', first⟩ := ht.extend step
    obtain ⟨t'', ht'', second⟩ := ht'.extend answered
    have silent : ∀ {x}, Pipeline.Moves c u r.pipeline .callReceive x → x.events = [] := by
      intro x moves
      cases moves with
      | callReceive at_ => rfl
      | advance at_ step | release at_ step => cases step
    rw [silent (Pipeline.moves_of_step step), List.append_nil] at first
    exact ⟨t'', ht'', first ▸ second⟩
  | lookAgain nothing => exact ⟨t, ht, (List.append_nil _).symm⟩
  | find found step | fail failed step => exact ht.extend step
  | draw step | send at_ step | delete at_ step => exact ht.extend step

/-- What the broker delivers in a move, the run receives, and it comes from the queue of the
consumer. -/
theorem Makes.batch {m : Move} {effect : Effect} (h : Makes c now b u r m effect) :
    deliveries (b.incidentsOfSome now (r.call? c m)) = effect.events.flatMap Event.batch ∧
      deliveredAt c.queue.url (b.incidentsOfSome now (r.call? c m)) =
        effect.events.flatMap Event.batch := by
  have silent {x : Transition} {a : Action} (step : r.pipeline.step c u a = some x)
      (none_ : a.batch = []) (log : List Incident) (nothing : deliveries log = []) :
      deliveries log = x.events.flatMap Event.batch ∧
        deliveredAt c.queue.url log = x.events.flatMap Event.batch := by
    rw [(Pipeline.moves_of_step step).batch_eq, none_]
    exact ⟨nothing, deliveredAt_eq_nil nothing⟩
  cases h with
  | @internal a x internal step =>
    refine silent step ?_ _ rfl
    cases a with
    | received r => cases internal
    | _ => rfl
  | beginReceive step begun => exact silent step rfl _ rfl
  | @refuse x y e b' step refused answered =>
    have batch : y.events.flatMap Event.batch = [] := (Pipeline.moves_of_step answered).batch_eq
    exact ⟨batch.symm, batch.symm⟩
  | lookAgain nothing =>
    simp only [call?, Broker.incidentsOfSome, Option.elim, Broker.incidents, nothing]
    exact ⟨rfl, rfl⟩
  | @find batch b' x found step =>
    have received : x.events.flatMap Event.batch = batch := (Pipeline.moves_of_step step).batch_eq
    simp only [call?, Broker.incidentsOfSome, Option.elim, Broker.incidents, found, stepped,
      received]
    exact ⟨deliveries_map batch, deliveredAt_map batch⟩
  | fail failed step =>
    refine silent step rfl _ ?_
    simp only [call?, Broker.incidentsOfSome, Option.elim, Broker.incidents, failed]
    rfl
  | draw step => exact silent step rfl _ rfl
  | send at_ step =>
    refine silent step rfl _ ?_
    simp only [call?, at_, Broker.incidentsOfSome, Option.elim]
    exact b.deliveries_incidents now fun _ _ same => by cases same
  | delete at_ step =>
    refine silent step rfl _ ?_
    simp only [call?, at_, Broker.incidentsOfSome, Option.elim]
    exact b.deliveries_incidents now fun _ _ same => by cases same

/-- Only a worker with an envelope that waits for its handler calls the handler, and nothing else is
observed of that move. -/
theorem Makes.dispatching_of_started {m : Move} {effect : Effect} {e : Envelope}
    (h : Makes c now b u r m effect) (mem : .started e ∈ effect.events) :
    ∃ w : Nat, r.pipeline.workers[w]? = some (.dispatching e) ∧ effect.events = [.started e] := by
  have one {a : Action} {x : Transition} (step : r.pipeline.step c u a = some x)
      (mem : .started e ∈ x.events) :
      ∃ w : Nat, r.pipeline.workers[w]? = some (.dispatching e) ∧ x.events = [.started e] :=
    (Pipeline.moves_of_step step).dispatching_of_started mem
  cases h with
  | internal internal step => exact one step mem
  | beginReceive step begun => exact one step mem
  | refuse step refused answered =>
    have silent : ∀ {p y error}, Pipeline.Moves c u p (.received (.error error)) y →
        .started e ∉ y.events := by
      intro p y error moves
      cases moves with
      | receiveFailed at_ => simp
      | advance at_ step | release at_ step => cases step
    exact absurd mem (silent (Pipeline.moves_of_step answered))
  | lookAgain nothing => nomatch mem
  | find found step | fail failed step => exact one step mem
  | draw step | send at_ step | delete at_ step => exact one step mem

end Run

end Courier
