import Courier.Proofs.Broker.Handouts
import Courier.Proofs.Pipeline.Cancellation
import Courier.Proofs.System.Leases

/-!
# Systems that go on

From a state of the system the steps of all runs lead on, and each run goes on as a run of its
pipeline. The runs of one consumer, taken together, form a chronicle, so that the table of
unsettled deliveries is theirs: a record belongs to a run that has not ended. What the runs receive
is what the broker hands out, at the instant of the step and for the time that the settings of the
consumer say.

## Main definitions

* `System.Leads`, `System.lead`: steps lead from one state of the system to another.
* `System.handedOut`: the deliveries that are made with a step.
* `System.deliveriesOf`: the deliveries of a message.

## Main results

* `System.Leads.continues`: a run goes on.
* `System.Reached.chronicle`: the runs of a consumer form a chronicle.
* `System.Reached.record_owner`: a record belongs to a run that has not ended.
* `System.Leads.clocked`: the deliveries of a history with their times.
* `System.Leads.received`: what the broker hands out is what the runs receive.
-/

namespace Courier

/-- Steps that a run makes while no other run uses the table continue it. -/
theorem Pipeline.Passes.continues {c : Consumer} {t : Track} {p p' : Pipeline} {u u' : Unsettled}
    {events : List Event} (h : Passes c u p events u' p') (ht : Tracked c t p) :
    ∃ t', Continues c t p t' p' ∧ t'.events = t.events ++ events := by
  induction h with
  | refl => exact ⟨t, .refl, (List.append_nil _).symm⟩
  | step h hx ih =>
    obtain ⟨t', continues, events_eq⟩ := ih
    refine ⟨_, continues.step hx, ?_⟩
    rw [(continues.tracked ht).matches.events_follow (moves_of_step hx), events_eq,
      List.append_assoc]

theorem Run.Makes.passes {c : Consumer} {now : Nat} {b : Broker} {u : Unsettled} {r : Run}
    {m : Move} {effect : Effect} (h : r.Makes c now b u m effect) :
    Pipeline.Passes c u r.pipeline effect.events effect.unsettled effect.run.pipeline := by
  cases h with
  | internal internal step => exact .one step
  | beginReceive step begun => exact .one step
  | @refuse x y e b' step refused answered =>
    obtain ⟨table, silent⟩ : x.unsettled = u ∧ x.events = [] := by
      have moves := Pipeline.moves_of_step step
      clear step answered
      cases moves with
      | callReceive at_ => exact ⟨rfl, rfl⟩
      | advance at_ step | release at_ step => cases step
    have both := (Pipeline.Passes.one step).step (table.symm ▸ answered)
    rwa [silent, List.nil_append] at both
  | lookAgain nothing => exact .refl
  | find found step | fail failed step => exact .one step
  | draw step => exact .one step
  | send at_ step => exact .one step
  | delete at_ step => exact .one step

/-- What a call does to messages when it hands them out, if there is a call. -/
def Broker.receptionsOfSome (b : Broker) (now : Nat) (call : Option Call) : List Reception :=
  call.elim [] (b.receptions now)

/-- The broker hands out what a run receives, for the time that the settings say. -/
theorem Run.Makes.receptions {c : Consumer} {now : Nat} {b : Broker} {u : Unsettled} {r : Run}
    {m : Move} {effect : Effect} (h : r.Makes c now b u m effect) :
    b.receptionsOfSome now (r.call? c m) =
      handedOut now c.settings.receiveOptions.visibilityTimeout
        (effect.events.flatMap Event.batch) := by
  have silent {x : Transition} {a : Action} {p : Pipeline} (step : p.step c u a = some x)
      (none_ : a.batch = []) : [] = handedOut now c.settings.receiveOptions.visibilityTimeout
        (x.events.flatMap Event.batch) := by
    rw [(Pipeline.moves_of_step step).batch_eq, none_]
    rfl
  cases h with
  | @internal a x internal step =>
    refine silent step ?_
    cases a with
    | received r => cases internal
    | _ => rfl
  | beginReceive step begun => exact silent step rfl
  | @refuse x y e b' step refused answered =>
    have none_ : y.events.flatMap Event.batch = [] := (Pipeline.moves_of_step answered).batch_eq
    show [] = handedOut now _ (y.events.flatMap Event.batch)
    rw [none_]
    rfl
  | lookAgain nothing =>
    simp only [call?, Broker.receptionsOfSome, Option.elim, Broker.receptions, nothing]
    rfl
  | @find batch b' x found step =>
    have received : x.events.flatMap Event.batch = batch := (Pipeline.moves_of_step step).batch_eq
    simp only [call?, Broker.receptionsOfSome, Option.elim, Broker.receptions, found, stepped,
      received]
  | fail failed step =>
    simp only [call?, Broker.receptionsOfSome, Option.elim, Broker.receptions, failed]
    exact silent step rfl
  | draw step => exact silent step rfl
  | send at_ step =>
    simp only [call?, at_, Broker.receptionsOfSome, Option.elim, Broker.receptions]
    exact silent step rfl
  | delete at_ step =>
    simp only [call?, at_, Broker.receptionsOfSome, Option.elim, Broker.receptions]
    exact silent step rfl

namespace System

/-- The deliveries that a run receives with a step. They hide their messages for as long as the
settings of its consumer say. -/
def handedOut (sys : System) : Action → List Event → List Handout
  | .move s _ _, events =>
    match sys.subscribers[s]? with
    | some sub => (events.flatMap Event.batch).map
        (⟨sys.now, sub.consumer.settings.receiveOptions.visibilityTimeout, ·⟩)
    | none => []
  | _, _ => []

/-- Steps lead from one state of the system to another. They add `later` to the history, and with
them the deliveries `handed` are made. -/
inductive Leads (sys : System) : List Occurrence → List Handout → System → Prop
  | refl : Leads sys [] [] sys
  | step {later handed sys' a sys'' events} (h : Leads sys later handed sys')
      (hx : sys'.step a = some (sys'', events)) :
      Leads sys (later ++ sys'.occurrences a events) (handed ++ sys'.handedOut a events) sys''

variable {consumers : List Consumer} {history later : List Occurrence}
  {handed more : List Handout} {sys sys' sys'' : System} {a : Action} {events : List Event}
  {s k : Nat} {sub : Subscriber} {run : Run}

theorem Leads.trans {later' : List Occurrence} (h : Leads sys later handed sys')
    (h' : Leads sys' later' more sys'') : Leads sys (later ++ later') (handed ++ more) sys'' := by
  induction h' with
  | refl => simpa using h
  | step h' hx ih => simpa using ih.step hx

theorem Leads.reached (h : Leads (initial consumers) history handed sys) :
    Reached consumers history sys := by
  induction h with
  | refl => exact .start
  | step h hx ih => exact ih.step hx

theorem Reached.exists_leads (h : Reached consumers history sys) :
    ∃ handed, Leads (initial consumers) history handed sys := by
  induction h with
  | start => exact ⟨[], .refl⟩
  | step h hx ih =>
    obtain ⟨handed, leads⟩ := ih
    exact ⟨_, leads.step hx⟩

/-- The steps that are given, if they are possible: what they add to the history, the deliveries
that they make, and where they lead. -/
def lead (later : List Occurrence) (handed : List Handout) (sys : System) :
    List Action → Option (List Occurrence × List Handout × System)
  | [] => some (later, handed, sys)
  | a :: as => (sys.step a).bind fun x =>
    lead (later ++ sys.occurrences a x.2) (handed ++ sys.handedOut a x.2) x.1 as

theorem Leads.lead {as : List Action} {last : List Occurrence × List Handout × System}
    (h : Leads sys later handed sys') (hr : lead later handed sys' as = some last) :
    Leads sys last.1 last.2.1 last.2.2 := by
  induction as generalizing later handed sys' with
  | nil =>
    cases hr
    exact h
  | cons a as ih =>
    obtain ⟨x, hx, hr⟩ := Option.bind_eq_some_iff.1 hr
    exact ih (h.step hx) hr

/-- What becomes of a run with a step of the system: it makes a move, or it stays what it is. -/
theorem run_of_step (hx : sys.step a = some (sys', events)) (hs : sys.subscribers[s]? = some sub)
    (hk : sub.runs[k]? = some run) : ∃ sub' run', sys'.subscribers[s]? = some sub' ∧
      sub'.runs[k]? = some run' ∧ sub'.consumer = sub.consumer ∧
      (run' = run ∧ eventsOf s k (a.observed events) = [] ∨
        ∃ m effect, run.Makes sub.consumer sys.now sys.broker sub.unsettled m effect ∧
          run' = effect.run ∧ eventsOf s k (a.observed events) = effect.events) := by
  have stays (same : sys'.subscribers = sys.subscribers)
      (silent : eventsOf s k (a.observed events) = []) :
      ∃ sub' run', sys'.subscribers[s]? = some sub' ∧ sub'.runs[k]? = some run' ∧
        sub'.consumer = sub.consumer ∧
        (run' = run ∧ eventsOf s k (a.observed events) = [] ∨
          ∃ m effect, run.Makes sub.consumer sys.now sys.broker sub.unsettled m effect ∧
            run' = effect.run ∧ eventsOf s k (a.observed events) = effect.events) :=
    ⟨sub, run, same ▸ hs, hk, rfl, .inl ⟨rfl, silent⟩⟩
  have outer : s < sys.subscribers.length := (List.getElem?_eq_some_iff.1 hs).1
  have inner : k < sub.runs.length := (List.getElem?_eq_some_iff.1 hk).1
  cases a with
  | move s₀ k₀ m =>
    obtain ⟨sub₀, run₀, effect, hs₀, hk₀, makes, rfl, rfl⟩ := makes_of_step hx
    by_cases there : s₀ = s
    · subst there
      obtain rfl : sub₀ = sub := Option.some.inj (hs₀.symm.trans hs)
      by_cases own : k₀ = k
      · subst own
        obtain rfl : run₀ = run := Option.some.inj (hk₀.symm.trans hk)
        refine ⟨_, effect.run, List.getElem?_set_self outer, List.getElem?_set_self inner, rfl,
          .inr ⟨m, effect, makes, rfl, eventsOf_events _⟩⟩
      · refine ⟨_, run, List.getElem?_set_self outer, ?_, rfl, .inl ⟨rfl, ?_⟩⟩
        · exact (List.getElem?_set_ne own).trans hk
        · exact eventsOf_others (fun same => own same.2) _
    · refine ⟨sub, run, (List.getElem?_set_ne there).trans hs, hk, rfl, .inl ⟨rfl, ?_⟩⟩
      exact eventsOf_others (fun same => there same.1) _
  | start s₀ =>
    obtain ⟨sub₀, hs₀, hx⟩ := Option.bind_eq_some_iff.1 hx
    cases hx
    by_cases there : s₀ = s
    · subst there
      obtain rfl : sub₀ = sub := Option.some.inj (hs₀.symm.trans hs)
      refine ⟨_, run, List.getElem?_set_self outer, ?_, rfl, .inl ⟨rfl, rfl⟩⟩
      exact (List.getElem?_append_left inner).trans hk
    · exact ⟨sub, run, (List.getElem?_set_ne there).trans hs, hk, rfl, .inl ⟨rfl, rfl⟩⟩
  | _ =>
    cases hx
    exact stays rfl rfl

/-- A run goes on, whatever the others do. -/
theorem Leads.continues (h : Leads sys later handed sys') (hs : sys.subscribers[s]? = some sub)
    (hk : sub.runs[k]? = some run) {t : Track} (ht : Pipeline.Tracked sub.consumer t run.pipeline) :
    ∃ sub' run' t', sys'.subscribers[s]? = some sub' ∧ sub'.runs[k]? = some run' ∧
      sub'.consumer = sub.consumer ∧
      Pipeline.Continues sub.consumer t run.pipeline t' run'.pipeline ∧
      t'.events = t.events ++ eventsOf s k later := by
  induction h with
  | refl => exact ⟨sub, run, t, hs, hk, rfl, .refl, (List.append_nil _).symm⟩
  | @step later handed sys' a sys'' events h hx ih =>
    obtain ⟨sub', run', t', hs', hk', same, continues, events_eq⟩ := ih
    obtain ⟨sub'', run'', hs'', hk'', same', rest⟩ := run_of_step hx hs' hk'
    refine ⟨sub'', run'', ?_⟩
    rw [eventsOf_append, eventsOf_occurrences, ← List.append_assoc, ← events_eq]
    rcases rest with ⟨rfl, silent⟩ | ⟨m, effect, makes, rfl, observed⟩
    · refine ⟨t', hs'', hk'', same'.trans same, continues, ?_⟩
      rw [silent, List.append_nil]
    · obtain ⟨t'', further, events'⟩ := makes.passes.continues (same ▸ continues.tracked ht)
      rw [same] at further
      exact ⟨t'', hs'', hk'', same'.trans same, continues.trans further, observed ▸ events'⟩

/-! ### The table of a consumer -/

/-- The runs of a consumer form a chronicle. -/
theorem Reached.chronicle (h : Reached consumers history sys)
    (hs : sys.subscribers[s]? = some sub) : ∃ log runs,
      sub.consumer.Chronicle log sub.unsettled runs ∧
      runs.map (·.2) = sub.runs.map (·.pipeline) := by
  induction h generalizing sub with
  | start =>
    obtain ⟨c, -, rfl⟩ : ∃ c, _ ∧ _ = sub := by simpa [initial] using hs
    exact ⟨[], [], .idle, rfl⟩
  | @step history sys a sys' events h hx ih =>
    cases a with
    | move s₀ k₀ m =>
      obtain ⟨sub₀, run₀, effect, hs₀, hk₀, makes, rfl, rfl⟩ := makes_of_step hx
      rcases subscribers_set hs with ⟨rfl, rfl⟩ | ⟨-, hs⟩
      · obtain ⟨log, runs, chronicle, pipelines⟩ := ih hs₀
        have at_ : (runs.map (·.2))[k₀]? = some run₀.pipeline := by
          rw [pipelines, List.getElem?_map, hk₀]
          rfl
        rw [List.getElem?_map] at at_
        obtain ⟨⟨t, p⟩, hk, rfl⟩ := Option.map_eq_some_iff.1 at_
        obtain ⟨more, t', chronicle', -⟩ := chronicle.passes hk makes.passes
        refine ⟨_, _, chronicle', ?_⟩
        rw [List.map_set, pipelines, List.map_set]
      · exact ih hs
    | start s₀ =>
      obtain ⟨sub₀, hs₀, hx⟩ := Option.bind_eq_some_iff.1 hx
      cases hx
      rcases subscribers_set hs with ⟨rfl, rfl⟩ | ⟨-, hs⟩
      · obtain ⟨log, runs, chronicle, pipelines⟩ := ih hs₀
        refine ⟨log, _, chronicle.begin, ?_⟩
        rw [List.map_append, List.map_append, pipelines]
        rfl
      · exact ih hs
    | _ =>
      cases hx
      exact ih hs

theorem receptions_step (hx : sys.step a = some (sys', events)) :
    sys.broker.receptionsOfSome sys.now (sys.call? a) =
      (sys.handedOut a events).map Reception.handed := by
  cases a with
  | move s k m =>
    obtain ⟨sub, run, effect, hs, hk, makes, rfl, -⟩ := makes_of_step hx
    rw [call?_move hs hk, makes.receptions, Courier.handedOut, handedOut, hs, List.map_map]
    rfl
  | _ => rfl

/-- The deliveries of a history with their times, which the clock has shown. -/
theorem Leads.clocked (h : Leads (initial consumers) history handed sys) :
    ∃ clock ≤ sys.now,
      Broker.Clocked (handed.map .handed) (incidentsOf history) clock sys.broker := by
  induction h with
  | refl => exact ⟨0, Nat.le_refl _, .start⟩
  | @step history handed sys a sys' events h hx ih =>
    obtain ⟨clock, past, clocked⟩ := ih
    have later := now_step hx
    rw [List.map_append, ← receptions_step hx, incidentsOf_append, incidentsOf_occurrences,
      broker_step hx]
    cases sys.call? a with
    | none =>
      refine ⟨clock, Nat.le_trans past later, ?_⟩
      simpa [Broker.receptionsOfSome, Broker.incidentsOfSome, Broker.afterSome] using clocked
    | some call => exact ⟨sys.now, later, clocked.call past call⟩

/-- The deliveries of a message. -/
def deliveriesOf (id : MessageId) (handed : List Handout) : List Handout :=
  handed.filter (·.delivery.id = id)

theorem receptionsOf_map_handed (id : MessageId) (handed : List Handout) :
    receptionsOf id (handed.map .handed) = (deliveriesOf id handed).map .handed := by
  rw [receptionsOf, List.filter_map]
  rfl

theorem handoutsOf_map_handed (id : MessageId) (handed : List Handout) :
    handoutsOf id (handed.map .handed) = deliveriesOf id handed := by
  rw [handoutsOf, receptionsOf_map_handed, handouts, List.filterMap_map]
  exact List.filterMap_some

/-- The deliveries that are made are those that the runs receive, with the settings of their
consumers. -/
theorem Leads.received (h : Leads (initial consumers) history handed sys) :
    ∀ x ∈ handed, x.time ≤ sys.now ∧ ∃ s k c, consumers[s]? = some c ∧
      ((s, k), x.delivery) ∈ receivedIn history ∧
      x.hides = c.settings.receiveOptions.visibilityTimeout := by
  induction h with
  | refl => exact List.forall_mem_nil _
  | @step history handed sys a sys' events h hx ih =>
    intro x mem
    rcases List.mem_append.1 mem with mem | mem
    · obtain ⟨past, s, k, c, there, received, hides⟩ := ih x mem
      refine ⟨Nat.le_trans past (now_step hx), s, k, c, there, ?_, hides⟩
      rw [receivedIn_append]
      exact List.mem_append_left _ received
    · cases a with
      | move s k m =>
        obtain ⟨sub, run, effect, hs, hk, makes, rfl, -⟩ := makes_of_step hx
        rw [handedOut, hs] at mem
        obtain ⟨r, brought, rfl⟩ := List.mem_map.1 mem
        refine ⟨now_step hx, s, k, sub.consumer, h.reached.consumer hs, ?_, rfl⟩
        rw [receivedIn_append, occurrences, receivedIn_append, receivedIn_incidents,
          Action.observed, receivedIn_events]
        exact List.mem_append_right _ (List.mem_map_of_mem brought)
      | _ => exact absurd mem List.not_mem_nil

end System

end Courier
