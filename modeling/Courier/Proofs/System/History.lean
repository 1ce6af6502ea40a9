import Courier.Proofs.System.Runs

/-!
# Histories of the system

A history of the system is what has happened to messages in the queues and what has been observed of
the runs, in one order. It begins without queues and with consumers that have no runs, and every
step adds what its call does to messages and then the events of the run. A message is delivered
just before the run receives it, and removed just before the run is told so.

The queues of a history are those of a history of the broker, and each run is a run of its
pipeline, whatever the others do.

## Main definitions

* `System.Occurrence`: an entry of a history.
* `System.Reached`: the histories of a system.
* `System.replay`: the history that given steps make.
* `System.incidentsOf`, `System.eventsOf`: the parts of a history that belong to the broker and to a
  run.

## Main results

* `System.Reached.broker`: the part of the broker is a history of the broker.
* `System.Reached.follows`: the part of a run is that of a run of its pipeline.
* `System.Reached.received`: the runs receive what the broker delivers.
-/

namespace Courier.System

/-- An entry of a history. -/
inductive Occurrence where
  | incident (i : Incident)
  /-- An event of the run `k` of the consumer `s`. -/
  | event (s k : Nat) (ev : Event)

/-- The incident that an entry is. -/
def Occurrence.incident? : Occurrence → Option Incident
  | .incident i => some i
  | .event _ _ _ => none

/-- The event of a run that an entry is. -/
def Occurrence.event? (s k : Nat) : Occurrence → Option Event
  | .incident _ => none
  | .event s' k' ev => if s' = s ∧ k' = k then some ev else none

/-- The messages that a run receives with an entry. -/
def Occurrence.received : Occurrence → List ((Nat × Nat) × Received)
  | .event s k (.received ms) => ms.map ((s, k), ·)
  | _ => []

/-- What happens to messages in a history. -/
def incidentsOf (history : List Occurrence) : List Incident :=
  history.filterMap (·.incident?)

/-- The events of a run in a history. -/
def eventsOf (s k : Nat) (history : List Occurrence) : List Event :=
  history.filterMap (·.event? s k)

/-- The messages that runs receive in a history. -/
def receivedIn (history : List Occurrence) : List ((Nat × Nat) × Received) :=
  history.flatMap (·.received)

/-- The call of the backend that a step makes. -/
def call? (sys : System) : Action → Option Broker.Call
  | .create l => some (.create l)
  | .resolve l => some (.resolve l)
  | .send q m => some (.send q m)
  | .failNext op count => some (.failNext op count)
  | .pass _ | .start _ => none
  | .move s k m => do
    let sub ← sys.subscribers[s]?
    let run ← sub.runs[k]?
    run.call? sub.consumer m

/-- The events of a step, with the run that makes it. -/
def Action.observed : Action → List Event → List Occurrence
  | .move s k _, events => events.map (.event s k)
  | _, _ => []

/-- What a step with the given events adds to the history. -/
def occurrences (sys : System) (a : Action) (events : List Event) : List Occurrence :=
  (sys.broker.incidentsOfSome sys.now (sys.call? a)).map .incident ++ a.observed events

/-- The system before the first step. -/
def initial (consumers : List Consumer) : System where
  subscribers := consumers.map fun consumer => { consumer }

/-- The states to which steps of the system lead, with their histories. -/
inductive Reached (consumers : List Consumer) : List Occurrence → System → Prop
  | start : Reached consumers [] (initial consumers)
  | step {history sys a sys' events} (h : Reached consumers history sys)
      (hx : sys.step a = some (sys', events)) :
      Reached consumers (history ++ sys.occurrences a events) sys'

/-- The history and the system after the given steps, if they are possible. -/
def replay (history : List Occurrence) (sys : System) :
    List Action → Option (List Occurrence × System)
  | [] => some (history, sys)
  | a :: as => (sys.step a).bind fun x => replay (history ++ sys.occurrences a x.2) x.1 as

theorem Reached.replay {consumers : List Consumer} {history : List Occurrence} {sys : System}
    {as : List Action} {last : List Occurrence × System} (h : Reached consumers history sys)
    (hr : replay history sys as = some last) : Reached consumers last.1 last.2 := by
  induction as generalizing history sys with
  | nil =>
    cases hr
    exact h
  | cons a as ih =>
    obtain ⟨x, hx, hr⟩ := Option.bind_eq_some_iff.1 hr
    exact ih (h.step hx) hr

/-! ### Parts of a history -/

section

variable {s k : Nat}

@[simp] theorem incidentsOf_append (history history' : List Occurrence) :
    incidentsOf (history ++ history') = incidentsOf history ++ incidentsOf history' :=
  List.filterMap_append

@[simp] theorem eventsOf_append (history history' : List Occurrence) :
    eventsOf s k (history ++ history') = eventsOf s k history ++ eventsOf s k history' :=
  List.filterMap_append

@[simp] theorem receivedIn_append (history history' : List Occurrence) :
    receivedIn (history ++ history') = receivedIn history ++ receivedIn history' :=
  List.flatMap_append

theorem mem_incidentsOf {i : Incident} : i ∈ incidentsOf history ↔ .incident i ∈ history := by
  simp only [incidentsOf, List.mem_filterMap]
  constructor
  · rintro ⟨o, mem, eq⟩
    cases o with
    | incident j =>
      cases eq
      exact mem
    | event s k ev => cases eq
  · exact fun mem => ⟨_, mem, rfl⟩

theorem mem_eventsOf {ev : Event} :
    ev ∈ eventsOf s k history ↔ .event s k ev ∈ history := by
  simp only [eventsOf, List.mem_filterMap]
  constructor
  · rintro ⟨o, mem, eq⟩
    cases o with
    | incident i => cases eq
    | event s' k' ev' =>
      simp only [Occurrence.event?] at eq
      split at eq
      · next same =>
        cases eq
        obtain ⟨rfl, rfl⟩ := same
        exact mem
      · cases eq
  · exact fun mem => ⟨_, mem, if_pos ⟨rfl, rfl⟩⟩

theorem incidentsOf_incidents (log : List Incident) :
    incidentsOf (log.map .incident) = log := by
  simp [incidentsOf, List.filterMap_map, Occurrence.incident?]

theorem incidentsOf_events (events : List Event) :
    incidentsOf (events.map (.event s k)) = [] := by
  simp [incidentsOf, Occurrence.incident?]

theorem eventsOf_incidents (log : List Incident) : eventsOf s k (log.map .incident) = [] := by
  simp [eventsOf, Occurrence.event?]

theorem eventsOf_events (events : List Event) :
    eventsOf s k (events.map (.event s k)) = events := by
  simp [eventsOf, List.filterMap_map, Occurrence.event?]

theorem eventsOf_others {s' k' : Nat} (h : ¬(s' = s ∧ k' = k)) (events : List Event) :
    eventsOf s k (events.map (.event s' k')) = [] := by
  simp [eventsOf, Occurrence.event?, h]

theorem receivedIn_incidents (log : List Incident) : receivedIn (log.map .incident) = [] := by
  simp [receivedIn, Occurrence.received]

theorem receivedIn_events (events : List Event) :
    receivedIn (events.map (.event s k)) = (events.flatMap Event.batch).map ((s, k), ·) := by
  induction events with
  | nil => rfl
  | cons ev events ih =>
    cases ev <;> simp_all [receivedIn, Occurrence.received, Event.batch]

private theorem received_filter (s k : Nat) (o : Occurrence) :
    (o.received.filter (·.1 = (s, k))).map (·.2) = (o.event? s k).toList.flatMap Event.batch := by
  cases o with
  | incident i => rfl
  | event s' k' ev =>
    by_cases same : s' = s ∧ k' = k
    · cases ev <;> simp [Occurrence.received, Occurrence.event?, same, Event.batch,
        List.filter_map, Function.comp_def]
    · cases ev <;> simp [Occurrence.received, Occurrence.event?, same, List.filter_map,
        Function.comp_def]

theorem receivedIn_filter (s k : Nat) (history : List Occurrence) :
    ((receivedIn history).filter (·.1 = (s, k))).map (·.2) =
      (eventsOf s k history).flatMap Event.batch := by
  induction history with
  | nil => rfl
  | cons o history ih =>
    have split : eventsOf s k (o :: history) = (o.event? s k).toList ++ eventsOf s k history := by
      cases eq : o.event? s k <;> simp [eventsOf, eq]
    rw [split, receivedIn, List.flatMap_cons, List.filter_append, List.map_append,
      List.flatMap_append, received_filter]
    exact congrArg _ ih

end

/-! ### Steps of the system -/

variable {consumers : List Consumer} {history : List Occurrence} {sys sys' : System}
  {a : Action} {events : List Event}

/-- A move of a run is one of the listed moves, and changes nothing else. -/
theorem makes_of_step {s k : Nat} {m : Move} (h : sys.step (.move s k m) = some (sys', events)) :
    ∃ sub run effect, sys.subscribers[s]? = some sub ∧ sub.runs[k]? = some run ∧
      run.Makes sub.consumer sys.now sys.broker sub.unsettled m effect ∧
      events = effect.events ∧ sys' = { sys with broker := effect.broker }.setSubscriber s
        { sub with unsettled := effect.unsettled, runs := sub.runs.set k effect.run } := by
  obtain ⟨sub, hs, h⟩ := Option.bind_eq_some_iff.1 h
  obtain ⟨run, hk, h⟩ := Option.bind_eq_some_iff.1 h
  obtain ⟨effect, step, h⟩ := Option.bind_eq_some_iff.1 h
  cases h
  exact ⟨sub, run, effect, hs, hk, Run.makes_of_step step, rfl, rfl⟩

theorem call?_move {s k : Nat} {sub : Subscriber} {run : Run} (hs : sys.subscribers[s]? = some sub)
    (hk : sub.runs[k]? = some run) (m : Move) :
    sys.call? (.move s k m) = run.call? sub.consumer m := by
  simp [call?, hs, hk]

theorem broker_step (h : sys.step a = some (sys', events)) :
    sys'.broker = sys.broker.afterSome sys.now (sys.call? a) := by
  cases a with
  | move s k m =>
    obtain ⟨sub, run, effect, hs, hk, makes, -, rfl⟩ := makes_of_step h
    rw [call?_move hs hk]
    exact makes.broker
  | start s =>
    obtain ⟨sub, hs, h⟩ := Option.bind_eq_some_iff.1 h
    cases h
    rfl
  | _ =>
    cases h
    rfl

theorem incidentsOf_occurrences (sys : System) (a : Action) (events : List Event) :
    incidentsOf (sys.occurrences a events) =
      sys.broker.incidentsOfSome sys.now (sys.call? a) := by
  have none_ : incidentsOf (a.observed events) = [] := by
    cases a with
    | move s k m => exact incidentsOf_events events
    | _ => rfl
  rw [occurrences, incidentsOf_append, incidentsOf_incidents, none_, List.append_nil]

/-- The part of the broker is a history of the broker. -/
theorem Reached.broker (h : Reached consumers history sys) :
    Broker.Reached (incidentsOf history) sys.broker := by
  induction h with
  | start => exact .start
  | @step history sys a sys' events h hx ih =>
    rw [incidentsOf_append, incidentsOf_occurrences, broker_step hx]
    cases sys.call? a with
    | none => simpa [Broker.incidentsOfSome, Broker.afterSome] using ih
    | some call => exact ih.call sys.now call

theorem eventsOf_occurrences (sys : System) (a : Action) (events : List Event) (s k : Nat) :
    eventsOf s k (sys.occurrences a events) = eventsOf s k (a.observed events) := by
  rw [occurrences, eventsOf_append, eventsOf_incidents, List.nil_append]

/-- The runs of a system are those of its history. -/
structure Follows (consumers : List Consumer) (history : List Occurrence) (sys : System) :
    Prop where
  consumers_eq : sys.subscribers.map (·.consumer) = consumers
  tracked : ∀ s sub k run, sys.subscribers[s]? = some sub → sub.runs[k]? = some run →
    ∃ t, Pipeline.Tracked sub.consumer t run.pipeline ∧ t.events = eventsOf s k history
  absent : ∀ s k, (∀ sub, sys.subscribers[s]? = some sub → sub.runs.length ≤ k) →
    eventsOf s k history = []

/-- A step that is not one of a run and leaves the consumers alone. -/
theorem Follows.idle (h : Follows consumers history sys)
    (same : sys'.subscribers = sys.subscribers) {new : List Occurrence}
    (silent : ∀ s k, eventsOf s k new = []) : Follows consumers (history ++ new) sys' := by
  constructor
  · rw [same]
    exact h.consumers_eq
  · intro s sub k run hs hk
    rw [same] at hs
    simpa [silent] using h.tracked s sub k run hs hk
  · intro s k none_
    rw [same] at none_
    simpa [silent] using h.absent s k none_

private theorem map_consumer_set {subs : List Subscriber} {s : Nat} {sub sub' : Subscriber}
    (hs : subs[s]? = some sub) (same : sub'.consumer = sub.consumer) :
    (subs.set s sub').map (·.consumer) = subs.map (·.consumer) := by
  obtain ⟨bound, rfl⟩ := List.getElem?_eq_some_iff.1 hs
  rw [List.map_set, same]
  have mapped : s < (subs.map (·.consumer)).length := by simpa using bound
  have at_ : (subs.map (·.consumer))[s] = subs[s].consumer := List.getElem_map ..
  rw [← at_, List.set_getElem_self]

theorem subscribers_set {s₀ s : Nat} {sub' sub : Subscriber}
    (hs : (sys.setSubscriber s₀ sub').subscribers[s]? = some sub) :
    s₀ = s ∧ sub' = sub ∨ s₀ ≠ s ∧ sys.subscribers[s]? = some sub := by
  simp only [setSubscriber, List.getElem?_set] at hs
  split at hs
  · next same =>
    split at hs
    · exact .inl ⟨same, Option.some.inj hs⟩
    · cases hs
  · next other => exact .inr ⟨other, hs⟩

/-- Where there is no run after a subscriber has been replaced by one with at least as many runs,
there was none before. -/
private theorem no_run_of_set {subs : List Subscriber} {s₀ s k : Nat} {sub₀ sub' : Subscriber}
    (hs₀ : subs[s₀]? = some sub₀) (more : sub₀.runs.length ≤ sub'.runs.length)
    (none_ : ∀ sub, (subs.set s₀ sub')[s]? = some sub → sub.runs.length ≤ k) :
    ∀ sub, subs[s]? = some sub → sub.runs.length ≤ k := by
  intro sub hs
  have bound : s₀ < subs.length := (List.getElem?_eq_some_iff.1 hs₀).1
  by_cases same : s₀ = s
  · subst same
    obtain rfl : sub₀ = sub := Option.some.inj (hs₀.symm.trans hs)
    exact Nat.le_trans more (none_ sub' (List.getElem?_set_self bound))
  · exact none_ sub ((List.getElem?_set_ne same).trans hs)

/-- A new run of a consumer begins. -/
theorem Follows.begin (h : Follows consumers history sys) {s₀ : Nat} {sub₀ : Subscriber}
    (hs₀ : sys.subscribers[s₀]? = some sub₀) :
    Follows consumers history (sys.setSubscriber s₀
      { sub₀ with runs := sub₀.runs ++ [{ pipeline := .initial sub₀.consumer }] }) := by
  constructor
  · rw [← h.consumers_eq]
    exact map_consumer_set hs₀ rfl
  · intro s sub k run hs hk
    rcases subscribers_set hs with ⟨rfl, rfl⟩ | ⟨-, hs⟩
    · rw [List.getElem?_append] at hk
      split at hk
      · exact h.tracked s₀ sub₀ k run hs₀ hk
      · next last =>
        have none_ : eventsOf s₀ k history = [] := by
          refine h.absent s₀ k fun sub hs => ?_
          obtain rfl : sub₀ = sub := Option.some.inj (hs₀.symm.trans hs)
          exact Nat.le_of_not_lt last
        obtain ⟨-, rfl⟩ : _ ∧ _ = run := by simpa [List.getElem?_singleton] using hk
        exact ⟨_, .initial, none_.symm⟩
    · exact h.tracked s sub k run hs hk
  · intro s k none_
    exact h.absent s k (no_run_of_set hs₀ (by simp) none_)

/-- A run of a consumer makes a move. -/
theorem Follows.move (h : Follows consumers history sys) {s₀ k₀ : Nat} {sub₀ : Subscriber}
    {run₀ : Run} {effect : Effect} {m : Move} (hs₀ : sys.subscribers[s₀]? = some sub₀)
    (hk₀ : sub₀.runs[k₀]? = some run₀)
    (makes : run₀.Makes sub₀.consumer sys.now sys.broker sub₀.unsettled m effect)
    {new : List Occurrence} (observed : ∀ s k, eventsOf s k new =
      eventsOf s k (effect.events.map (Occurrence.event s₀ k₀))) :
    Follows consumers (history ++ new) ({ sys with broker := effect.broker }.setSubscriber s₀
      { sub₀ with unsettled := effect.unsettled, runs := sub₀.runs.set k₀ effect.run }) := by
  have inner : k₀ < sub₀.runs.length := (List.getElem?_eq_some_iff.1 hk₀).1
  have others {s k : Nat} (other : ¬(s₀ = s ∧ k₀ = k)) :
      eventsOf s k (history ++ new) = eventsOf s k history := by
    rw [eventsOf_append, observed, eventsOf_others other, List.append_nil]
  constructor
  · rw [← h.consumers_eq]
    exact map_consumer_set hs₀ rfl
  · intro s sub k run hs hk
    rcases subscribers_set hs with ⟨rfl, rfl⟩ | ⟨other, hs⟩
    · simp only [List.getElem?_set, inner, ↓reduceIte] at hk
      split at hk
      · next same =>
        subst same
        obtain rfl : effect.run = run := Option.some.inj hk
        obtain ⟨t, ht, events⟩ := h.tracked s₀ sub₀ k₀ run₀ hs₀ hk₀
        obtain ⟨t', ht', events'⟩ := makes.tracked ht
        refine ⟨t', ht', ?_⟩
        rw [events', events, eventsOf_append, observed, eventsOf_events]
      · next other =>
        rw [others fun same => other same.2]
        exact h.tracked s₀ sub₀ k run hs₀ hk
    · rw [others fun same => other same.1]
      exact h.tracked s sub k run hs hk
  · intro s k none_
    have free := no_run_of_set hs₀ (by simp) none_
    rw [others ?_]
    · exact h.absent s k free
    · rintro ⟨rfl, rfl⟩
      exact absurd (free sub₀ hs₀) (Nat.not_le_of_lt inner)

/-- The runs of a system are those of its history. -/
theorem Reached.follows (h : Reached consumers history sys) : Follows consumers history sys := by
  induction h with
  | start =>
    constructor
    · simp [initial, Function.comp_def]
    · intro s sub k run hs hk
      obtain ⟨c, -, rfl⟩ : ∃ c, _ ∧ _ = sub := by simpa [initial] using hs
      simp at hk
    · exact fun _ _ _ => rfl
  | @step history sys a sys' events h hx ih =>
    have observed := eventsOf_occurrences sys a events
    cases a with
    | move s k m =>
      obtain ⟨sub, run, effect, hs, hk, makes, rfl, rfl⟩ := makes_of_step hx
      exact ih.move hs hk makes observed
    | start s =>
      obtain ⟨sub, hs, hx⟩ := Option.bind_eq_some_iff.1 hx
      cases hx
      simpa [occurrences, call?, Broker.incidentsOfSome, Action.observed] using ih.begin hs
    | _ =>
      cases hx
      exact ih.idle (by rfl) observed

/-- The consumer of a run is one of those with which the history began. -/
theorem Reached.consumer (h : Reached consumers history sys) {s : Nat} {sub : Subscriber}
    (hs : sys.subscribers[s]? = some sub) : consumers[s]? = some sub.consumer := by
  rw [← h.follows.consumers_eq, List.getElem?_map, hs]
  rfl

/-! ### What runs receive -/

/-- With a step, the runs receive what the broker delivers, from the queue of their consumer. -/
theorem received_step (h : Reached consumers history sys)
    (hx : sys.step a = some (sys', events)) :
    (receivedIn (sys.occurrences a events)).map (·.2) =
        deliveries (incidentsOf (sys.occurrences a events)) ∧
      ∀ x ∈ receivedIn (sys.occurrences a events), ∃ c, consumers[x.1.1]? = some c ∧
        x.2 ∈ deliveredAt c.queue.url (incidentsOf (sys.occurrences a events)) := by
  rw [incidentsOf_occurrences, occurrences, receivedIn_append, receivedIn_incidents,
    List.nil_append]
  have silent (call : Broker.Call) (other : ∀ q o, call ≠ .check q o) :
      deliveries (sys.broker.incidentsOfSome sys.now (some call)) = [] :=
    sys.broker.deliveries_incidents sys.now other
  cases a with
  | move s k m =>
    obtain ⟨sub, run, effect, hs, hk, makes, rfl, -⟩ := makes_of_step hx
    obtain ⟨all, own⟩ := makes.batch
    rw [call?_move hs hk, all, Action.observed, receivedIn_events]
    refine ⟨by simp [Function.comp_def], ?_⟩
    intro x hx
    obtain ⟨r, hr, rfl⟩ := List.mem_map.1 hx
    exact ⟨sub.consumer, h.consumer hs, own ▸ hr⟩
  | pass ms => exact ⟨rfl, nofun⟩
  | start s => exact ⟨rfl, nofun⟩
  | create l => exact ⟨(silent (.create l) nofun).symm, nofun⟩
  | resolve l => exact ⟨(silent (.resolve l) nofun).symm, nofun⟩
  | send q m => exact ⟨(silent (.send q m) nofun).symm, nofun⟩
  | failNext op count => exact ⟨(silent (.failNext op count) nofun).symm, nofun⟩

/-- The runs receive what the broker delivers. -/
theorem Reached.received (h : Reached consumers history sys) :
    (receivedIn history).map (·.2) = deliveries (incidentsOf history) := by
  induction h with
  | start => rfl
  | step h hx ih =>
    rw [receivedIn_append, incidentsOf_append, deliveries_append, List.map_append, ih,
      (received_step h hx).1]

theorem Reached.received_from (h : Reached consumers history sys) :
    ∀ x ∈ receivedIn history, ∃ c, consumers[x.1.1]? = some c ∧
      x.2 ∈ deliveredAt c.queue.url (incidentsOf history) := by
  induction h with
  | start => nofun
  | step h hx ih =>
    intro x mem
    rw [receivedIn_append, List.mem_append] at mem
    simp only [incidentsOf_append, deliveredAt_append]
    rcases mem with mem | mem
    · obtain ⟨c, hc, delivered⟩ := ih x mem
      exact ⟨c, hc, List.mem_append_left _ delivered⟩
    · obtain ⟨c, hc, delivered⟩ := (received_step h hx).2 x mem
      exact ⟨c, hc, List.mem_append_right _ delivered⟩

theorem received_of_tracked {c : Consumer} {s k : Nat} {t : Track} {p : Pipeline}
    (tracked : Pipeline.Tracked c t p) (events_eq : t.events = eventsOf s k history) :
    t.received = ((receivedIn history).filter (·.1 = (s, k))).map (·.2) := by
  rw [tracked.received_eq, events_eq, receivedIn_filter]

/-- What a run has received was delivered from the queue of its consumer. -/
theorem Reached.delivered_of_tracked (h : Reached consumers history sys) {s k : Nat}
    {sub : Subscriber} {run : Run} {t : Track} (hs : sys.subscribers[s]? = some sub)
    (tracked : Pipeline.Tracked sub.consumer t run.pipeline)
    (events_eq : t.events = eventsOf s k history) :
    ∀ m ∈ t.received, m ∈ deliveredAt sub.consumer.queue.url (incidentsOf history) := by
  intro m hm
  rw [received_of_tracked tracked events_eq] at hm
  obtain ⟨x, hx, rfl⟩ := List.mem_map.1 hm
  obtain ⟨mem, own⟩ := List.mem_filter.1 hx
  obtain ⟨c, hc, delivered⟩ := h.received_from x mem
  have run_eq : x.1 = (s, k) := of_decide_eq_true own
  rw [run_eq, h.consumer hs] at hc
  exact Option.some.inj hc ▸ delivered

/-- A delivery in the hand of a worker was delivered by the broker, and what has been observed of it
is in the history. -/
theorem Reached.carried (h : Reached consumers history sys) {s k w : Nat} {sub : Subscriber}
    {run : Run} {state : Worker} (hs : sys.subscribers[s]? = some sub)
    (hk : sub.runs[k]? = some run) (at_ : run.pipeline.workers[w]? = some state)
    (busy : state.isBusy = true) :
    ∃ d, state.Carries sub.consumer d ∧
      d.message ∈ deliveredAt sub.consumer.queue.url (incidentsOf history) ∧
      ∀ ev ∈ d.events, .event s k ev ∈ history := by
  obtain ⟨t, tracked, events_eq⟩ := h.follows.tracked s sub k run hs hk
  obtain ⟨d, hw, carried⟩ := tracked.matches.carried at_ busy
  have hd : d ∈ t.deliveries := Track.mem_deliveries_of_worker hw
  refine ⟨d, carried, ?_, fun ev mem => ?_⟩
  · exact h.delivered_of_tracked hs tracked events_eq _ (tracked.mem_received hd)
  · rw [← mem_eventsOf, ← events_eq]
    exact tracked.mem_events hd mem

/-! ### The step that makes an entry -/

/-- The history before the step that made an entry, and that step. -/
theorem Reached.split {before after : List Occurrence} {o : Occurrence}
    (h : Reached consumers (before ++ o :: after) sys) :
    ∃ past sys₀ a sys₁ events first last, Reached consumers past sys₀ ∧
      sys₀.step a = some (sys₁, events) ∧ sys₀.occurrences a events = first ++ o :: last ∧
      before = past ++ first ∧ last <+: after := by
  generalize eq : before ++ o :: after = history at h
  induction h generalizing after with
  | start => simp at eq
  | @step history sys₀ a sys₁ events h hx ih =>
    rcases List.append_eq_append_iff.1 eq with ⟨mid, rfl, made⟩ | ⟨mid, rfl, made⟩
    · cases mid with
      | nil =>
        exact ⟨before, sys₀, a, sys₁, events, [], after, by simpa using h, hx, made.symm, by simp,
          List.prefix_rfl⟩
      | cons o' mid =>
        obtain ⟨rfl, rfl⟩ := List.cons.inj made
        obtain ⟨past, s₀, a', s₁, evs, first, last, hr, hs, occ, bef, pre⟩ := ih rfl
        exact ⟨past, s₀, a', s₁, evs, first, last, hr, hs, occ, bef,
          pre.trans (List.prefix_append ..)⟩
    · exact ⟨history, sys₀, a, sys₁, events, mid, after, h, hx, made, rfl, List.prefix_rfl⟩

/-- The step that calls a handler is that of a worker with an envelope that waits for it. -/
theorem started_step (hx : sys.step a = some (sys', events)) {s k : Nat} {e : Envelope}
    (mem : .event s k (.started e) ∈ sys.occurrences a events) :
    ∃ m sub run, ∃ w : Nat, a = .move s k m ∧ sys.subscribers[s]? = some sub ∧
      sub.runs[k]? = some run ∧ run.pipeline.workers[w]? = some (.dispatching e) ∧
      events = [.started e] := by
  have observed : .event s k (.started e) ∈ a.observed events := by
    simpa [occurrences] using mem
  cases a with
  | move s' k' m =>
    obtain ⟨sub, run, effect, hs, hk, makes, rfl, -⟩ := makes_of_step hx
    obtain ⟨ev, started, eq⟩ := List.mem_map.1 observed
    cases eq
    obtain ⟨w, at_, only⟩ := makes.dispatching_of_started started
    exact ⟨m, sub, run, w, rfl, hs, hk, at_, only⟩
  | _ => nomatch observed

end Courier.System
