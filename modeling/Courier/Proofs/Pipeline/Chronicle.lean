import Courier.Proofs.Pipeline.Dispatch

/-!
# The log of all runs of a consumer

The runs of a consumer share the table of unsettled deliveries, and their steps may come in any
order. A chronicle follows all of them and keeps one log: for each event the run, the delivery that
it is about, and whether the run had been asked to end.

## Main definitions

* `Remark`: an entry of the log.
* `exchanges`: what the runs and the backend have told each other.
* `Consumer.Chronicle`: the runs of a consumer with the log of all of them.

## Main results

* `Consumer.Chronicle.passes`: a run can make several steps.
-/

namespace Courier

/-- An entry of the log of all runs. -/
structure Remark where
  run : Nat
  /-- Whether the run had been asked to end. -/
  cancelled : Bool
  /-- The delivery that the entry is about. -/
  number : Option Nat
  event : Event

/-- What a step of the run `k` adds to the log of all runs. -/
def Track.remarks (t : Track) (k : Nat) (cancelled : Bool) (a : Action) (x : Transition) :
    List Remark :=
  ((t.follow a x).log.drop t.log.length).map fun entry => ⟨k, cancelled, entry.1, entry.2⟩

/-- What the runs and the backend have told each other. -/
def exchanges (log : List Remark) : List (Nat × Exchange) :=
  log.filterMap fun y => y.event.exchange?.map (y.run, ·)

theorem exchanges_append (log log' : List Remark) :
    exchanges (log ++ log') = exchanges log ++ exchanges log' :=
  List.filterMap_append

namespace Track

variable {c : Consumer} {t : Track} {p : Pipeline} {u : Unsettled} {a : Action} {x : Transition}

theorem run_of_mem_remarks {k : Nat} {cancelled : Bool} {y : Remark}
    (mem : y ∈ t.remarks k cancelled a x) : y.run = k := by
  obtain ⟨entry, -, rfl⟩ := List.mem_map.1 mem
  rfl

theorem Matches.map_remarks (h : t.Matches c p) (moves : Pipeline.Moves c u p a x) (k : Nat)
    (cancelled : Bool) : (t.remarks k cancelled a x).map (·.event) = x.events := by
  have all := h.events_follow moves
  have size : t.log.length = t.events.length := (List.length_map _).symm
  rw [remarks, List.map_map]
  show ((t.follow a x).log.drop t.log.length).map (·.2) = x.events
  rw [List.map_drop]
  show (t.follow a x).events.drop t.log.length = x.events
  rw [all, size, List.drop_left]

theorem Matches.exchanges_remarks (h : t.Matches c p) (moves : Pipeline.Moves c u p a x) (k : Nat)
    (cancelled : Bool) : exchanges (t.remarks k cancelled a x) =
      (x.events.filterMap Event.exchange?).map (k, ·) := by
  rw [← h.map_remarks moves k cancelled, List.filterMap_map, List.map_filterMap]
  refine List.filterMap_congr fun y mem => ?_
  rw [run_of_mem_remarks mem]
  rfl

theorem remarks_eq {k : Nat} {cancelled : Bool} {tag : Option Nat} {events : List Event}
    (log : (t.follow a x).log = t.log ++ events.map (tag, ·)) :
    t.remarks k cancelled a x = events.map (⟨k, cancelled, tag, ·⟩) := by
  rw [remarks, log, List.drop_left, List.map_map]
  rfl

end Track

namespace Consumer

/-- A consumer has come to a state: the log of all runs, its table, and its runs with their tracks.
At any time a new run may begin, and every step of a run finds the table as the steps of all runs
have left it. -/
inductive Chronicle (c : Consumer) : List Remark → Unsettled → List (Track × Pipeline) → Prop
  | idle : Chronicle c [] ∅ []
  | begin {log u runs} (h : Chronicle c log u runs) :
      Chronicle c log u (runs ++ [(.initial c, .initial c)])
  | step {log u runs k t p a x} (h : Chronicle c log u runs) (hk : runs[k]? = some (t, p))
      (hx : p.step c u a = some x) :
      Chronicle c (log ++ t.remarks k p.cancelled a x) x.unsettled
        (runs.set k (t.follow a x, x.pipeline))

/-- Makes the given steps of the given runs, if they are possible, and writes the log. -/
def recount (c : Consumer) : List Remark → Unsettled → List (Track × Pipeline) →
    List (Nat × Action) → Option (List Remark × Unsettled × List (Track × Pipeline))
  | log, u, runs, [] => some (log, u, runs)
  | log, u, runs, (k, a) :: steps =>
    runs[k]?.bind fun run => (run.2.step c u a).bind fun x =>
      recount c (log ++ run.1.remarks k run.2.cancelled a x) x.unsettled
        (runs.set k (run.1.follow a x, x.pipeline)) steps

namespace Chronicle

variable {c : Consumer} {log : List Remark} {u u' : Unsettled} {runs : List (Track × Pipeline)}
  {k : Nat} {t : Track} {p p' : Pipeline}

theorem serving (h : c.Chronicle log u runs) : c.Serving u runs := by
  induction h with
  | idle => exact .idle
  | begin h ih => exact ih.begin
  | step h hk hx ih => exact ih.step hk hx

theorem tracked (h : c.Chronicle log u runs) (hk : runs[k]? = some (t, p)) :
    Pipeline.Tracked c t p :=
  h.serving.tracked _ (List.mem_of_getElem? hk)

/-- A run makes several steps. -/
theorem passes (h : c.Chronicle log u runs) (hk : runs[k]? = some (t, p)) {events : List Event}
    (passes : Pipeline.Passes c u p events u' p') : ∃ log' t',
      c.Chronicle (log ++ log') u' (runs.set k (t', p')) ∧
      exchanges log' = (events.filterMap Event.exchange?).map (k, ·) ∧
      t'.received = t.received ++ events.flatMap Event.batch := by
  have bound : k < runs.length := (List.getElem?_eq_some_iff.1 hk).1
  induction passes with
  | refl =>
    refine ⟨[], t, ?_, rfl, (List.append_nil _).symm⟩
    obtain ⟨_, eq⟩ := List.getElem?_eq_some_iff.1 hk
    rw [← eq, List.set_getElem_self, List.append_nil]
    exact h
  | @step events u₁ p₁ a x passes hx ih =>
    obtain ⟨log', t', h', same, received⟩ := ih
    have there : (runs.set k (t', p₁))[k]? = some (t', p₁) := List.getElem?_set_self bound
    have next := h'.step there hx
    rw [List.set_set, List.append_assoc] at next
    have moves := Pipeline.moves_of_step hx
    refine ⟨_, _, next, ?_, ?_⟩
    · rw [exchanges_append, same, (h'.tracked there).matches.exchanges_remarks moves,
        List.filterMap_append, List.map_append]
    · rw [Track.received_follow, received, List.flatMap_append, moves.batch_eq, List.append_assoc]

theorem recount {steps : List (Nat × Action)}
    {last : List Remark × Unsettled × List (Track × Pipeline)} (h : c.Chronicle log u runs)
    (made : c.recount log u runs steps = some last) : c.Chronicle last.1 last.2.1 last.2.2 := by
  induction steps generalizing log u runs with
  | nil =>
    cases made
    exact h
  | cons step steps ih =>
    obtain ⟨run, hk, made⟩ := Option.bind_eq_some_iff.1 made
    obtain ⟨x, hx, made⟩ := Option.bind_eq_some_iff.1 made
    exact ih (h.step hk hx) made

end Chronicle

end Consumer

end Courier
