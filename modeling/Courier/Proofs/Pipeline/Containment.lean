import Courier.Proofs.Pipeline.Losses
import Courier.Proofs.Pipeline.Replacement

/-!
# Failures are contained

When the dispatch of a delivery fails, it makes no difference to the rest of a consumer in which way
it fails. Take the runs of a consumer, and for some of the deliveries whose dispatches have failed
in them put other messages in their place, and other handlers, such that these dispatches fail as
well, but in other ways. Then there are runs in which everything else is the same: buffers, poller
and workers, the table of unsettled deliveries, and what the runs and the backend have told each
other.

One failure is not contained. When the payload of a panic panics in its turn as it is released, the
worker is lost.

## Main definitions

* `Consumer.Replaces`: which failures are replaced by which.
* `Consumer.Counterpart`: the runs in which they are replaced.
* `Consumer.Contained`: what becomes of a dispatch that fails.

## Main results

* `Consumer.Chronicle.replaced`: failures can be replaced by others.
* `Consumer.Chronicle.contained`: failures are contained, unless a worker is lost.
* `Consumer.Chronicle.worker_lost`: a consumer that has lost its only worker.
-/

namespace Courier

namespace Consumer

variable {c c' : Consumer} {swap : Nat → Nat → Option Received} {log : List Remark}
  {u : Unsettled} {runs : List (Track × Pipeline)} {k : Nat} {t : Track} {p : Pipeline}
  {a : Action} {x : Transition}

/-- The delivery `n` of the run `k` can be replaced by `swap k n`. -/
structure Replaces (c c' : Consumer) (swap : Nat → Nat → Option Received) (log : List Remark)
    (runs : List (Track × Pipeline)) : Prop where
  settings : c'.settings = c.settings
  stands : ∀ k t p, runs[k]? = some (t, p) → c.Stands c' (swap k) t.received
  allows : ∀ y ∈ log, y.Allows c' (swap y.run)

/-- The runs with the replaced deliveries. They are in the same states, but for these deliveries. -/
structure Counterpart (swap : Nat → Nat → Option Received) (log : List Remark)
    (runs : List (Track × Pipeline)) (log' : List Remark) (runs' : List (Track × Pipeline)) :
    Prop where
  length : runs'.length = runs.length
  each : ∀ k t p, runs[k]? = some (t, p) → ∃ t' p', runs'[k]? = some (t', p') ∧
    Pipeline.Mirrors (swap k) t p p' ∧
    t'.received = (Delivery.ofBatch 0 t.received).map (·.swapped (swap k))
  exchanges : exchanges log' = exchanges log

private theorem Replaces.of_begin (h : c.Replaces c' swap log (runs ++ [(t, p)])) :
    c.Replaces c' swap log runs where
  settings := h.settings
  stands k t p hk := h.stands k t p (by
    rwa [List.getElem?_append_left (List.getElem?_eq_some_iff.1 hk).1])
  allows := h.allows

private theorem Replaces.of_step {more : List Remark} (hk : runs[k]? = some (t, p))
    (h : c.Replaces c' swap (log ++ more) (runs.set k (t.follow a x, x.pipeline))) :
    c.Replaces c' swap log runs where
  settings := h.settings
  stands j t' p' hj := by
    by_cases same : k = j
    · subst same
      cases hk.symm.trans hj
      have bound : k < runs.length := (List.getElem?_eq_some_iff.1 hk).1
      have after := h.stands k _ _ (List.getElem?_set_self bound)
      rw [Track.received_follow] at after
      exact after.shorten
    · exact h.stands j t' p' (by rwa [List.getElem?_set_ne same])
  allows y mem := h.allows y (List.mem_append_left more mem)

private theorem Counterpart.begin {log' : List Remark} {runs' : List (Track × Pipeline)}
    (h : Counterpart swap log runs log' runs') (settings : c'.settings = c.settings) :
    Counterpart swap log (runs ++ [(.initial c, .initial c)]) log'
      (runs' ++ [(.initial c', .initial c')]) where
  length := by rw [List.length_append, List.length_append, h.length]; rfl
  each := by
    intro k t p hk
    by_cases old : k < runs.length
    · rw [List.getElem?_append_left old] at hk
      rw [List.getElem?_append_left (h.length ▸ old)]
      exact h.each k t p hk
    · obtain ⟨rfl, eq⟩ : k = runs.length ∧ (t, p) = (.initial c, .initial c) := by
        have bound := (List.getElem?_eq_some_iff.1 hk).1
        rw [List.length_append, List.length_singleton] at bound
        obtain rfl : k = runs.length := by omega
        exact ⟨rfl, by simpa using hk.symm⟩
      cases eq
      refine ⟨.initial c', .initial c', ?_, ?_, rfl⟩
      · rw [← h.length, List.getElem?_concat_length]
      · have same : Pipeline.initial c' = .initial c := by
          rw [Pipeline.initial, Pipeline.initial, settings]
        rw [same]
        refine ⟨rfl, rfl, rfl, rfl, .nil, rfl, fun w s o hs ho => ⟨s, hs, ?_⟩⟩
        obtain rfl : o = none := List.eq_of_mem_replicate (List.mem_of_getElem? ho)
        exact .free s
  exchanges := h.exchanges

private theorem Counterpart.step {log' more more' : List Remark}
    {runs' : List (Track × Pipeline)} {t₁ t₂ : Track} {p₁ p₂ : Pipeline}
    (h : Counterpart swap log runs log' runs') (bound : k < runs.length)
    (mirrors : Pipeline.Mirrors (swap k) t₁ p₁ p₂)
    (received : t₂.received = (Delivery.ofBatch 0 t₁.received).map (·.swapped (swap k)))
    (same : Courier.exchanges more' = Courier.exchanges more) :
    Counterpart swap (log ++ more) (runs.set k (t₁, p₁)) (log' ++ more')
      (runs'.set k (t₂, p₂)) where
  length := by rw [List.length_set, List.length_set, h.length]
  each := by
    intro j t p hj
    by_cases own : k = j
    · subst own
      rw [List.getElem?_set_self bound] at hj
      cases hj
      exact ⟨t₂, p₂, List.getElem?_set_self (h.length.symm ▸ bound), mirrors, received⟩
    · rw [List.getElem?_set_ne own] at hj ⊢
      exact h.each j t p hj
  exchanges := by rw [exchanges_append, exchanges_append, h.exchanges, same]

/-- Failures can be replaced by others in runs of a consumer. -/
theorem Chronicle.replaced (h : c.Chronicle log u runs) (hr : c.Replaces c' swap log runs) :
    ∃ log' runs', c'.Chronicle log' u runs' ∧ Counterpart swap log runs log' runs' := by
  induction h with
  | idle => exact ⟨[], [], .idle, rfl, nofun, rfl⟩
  | begin h ih =>
    obtain ⟨log', runs', h', counterpart⟩ := ih hr.of_begin
    exact ⟨log', _, h'.begin, counterpart.begin hr.settings⟩
  | @step log u runs k t p a x h hk hx ih =>
    obtain ⟨log', runs', h', counterpart⟩ := ih (hr.of_step hk)
    obtain ⟨t', p', hk', mirrors, received⟩ := counterpart.each k t p hk
    have bound : k < runs.length := (List.getElem?_eq_some_iff.1 hk).1
    have moves := Pipeline.moves_of_step hx
    obtain ⟨events, p'', passes, mirrors', same, brought⟩ :=
      mirrors.follow (h.tracked hk) (k := k) moves hr.settings
        (hr.stands k _ _ (List.getElem?_set_self bound)) fun y mem => by
          have allowed := hr.allows y (List.mem_append_right log mem)
          rwa [Track.run_of_mem_remarks mem] at allowed
    obtain ⟨more, t'', h'', exchanged, received'⟩ := h'.passes hk' passes
    refine ⟨_, _, h'', counterpart.step bound mirrors' ?_ ?_⟩
    · rw [received', received, brought, Track.received_follow, Delivery.ofBatch_append,
        List.map_append, Nat.zero_add]
    · rw [exchanged, same, (h.tracked hk).matches.exchanges_remarks moves]

/-- What becomes of a dispatch that fails, in any run of a consumer. Whichever way it fails in, its
worker comes to the same state with the same table, nothing having been asked of the backend, and
can take its next job; and failures do not stop the poller or a worker, unless the worker is lost
when the payload of a panic is released. -/
structure Contained (c : Consumer) (u : Unsettled) (t : Track) (p : Pipeline) : Prop where
  leads : Pipeline.FailsAlike c u p
  fails : ∀ a x e error, p.step c u a = some x → .failed e error ∈ x.events →
    ∃ w, Pipeline.FailsAt c u t p w e error x
  kept : ∀ d ∈ t.deliveries, ∀ e error, .failed e error ∈ d.events →
    ∀ e', .deleteCalled e' ∉ d.events
  running : Pipeline.Running c p
  loses : ∀ w x, p.lose u w = some x → Pipeline.Loses c u p w x

/-- Failures are contained, unless a worker is lost. Every dispatch that fails has the same effect,
and to replace any of these failures by others, in runs that may go on afterwards as they like,
leaves everything else as it is. Once no delivery that is replaced is pending, the states do not
differ at all. A run that loses workers is short of these and of no others, and what is left of it
contains failures in the same way. -/
theorem Chronicle.contained (h : c.Chronicle log u runs) :
    (∀ (k : Nat) (t : Track) (p : Pipeline), runs[k]? = some (t, p) → c.Contained u t p) ∧
    (∀ c' swap, c.Replaces c' swap log runs →
      ∃ log' runs', c'.Chronicle log' u runs' ∧ Counterpart swap log runs log' runs' ∧
        ∀ (k : Nat) (t : Track) (p : Pipeline), runs[k]? = some (t, p) →
          (∀ d ∈ t.pending, swap k d.number = none) → ∃ t', runs'[k]? = some (t', p)) ∧
    ∀ lost p, Pipeline.Endures c lost p →
      Pipeline.Short c lost p ∧ ∀ u, Pipeline.FailsAlike c u p := by
  refine ⟨fun k t p hk => ?_, fun c' swap hr => ?_, fun _ p endures => ?_⟩
  · have tracked := h.tracked hk
    exact {
      leads := Pipeline.failsAlike c u p
      fails := fun a x e error hx mem => tracked.failsAt h.serving.distinct hx mem
      kept := fun d hd e error mem => (tracked.course d hd).not_deleted mem
      running := tracked.running
      loses := fun w x lost => Pipeline.loses lost }
  · obtain ⟨log', runs', h', counterpart⟩ := h.replaced hr
    refine ⟨log', runs', h', counterpart, fun k t p hk kept => ?_⟩
    obtain ⟨t', p', hk', mirrors, -⟩ := counterpart.each k t p hk
    rw [mirrors.eq_of_kept (h.tracked hk).matches kept] at hk'
    exact ⟨t', hk'⟩
  · exact ⟨endures.short, fun u => Pipeline.failsAlike c u p⟩

end Consumer

/-! ### A panic and an unregistered type -/

namespace Sample

/-- A host whose handler panics after a moment. -/
def clumsy : Consumer where
  settings := { workers := 1 }
  registry :=
    (∅ : Registry).add ⟨"Greeting", fun _ _ => .ok (.sleep 10 (.finish (.panicked "oops")))⟩
  queue := host.queue

/-- A message of a type without a handler, with the record of the greeting. -/
def oddity : Received :=
  { greeting with
    attributes := ((∅ : Dictionary Attribute).insert payloadKey (.binary [])).insert typeKey
      (.string "Oddity") }

/-- The steps of a run until the handler of the greeting has panicked. -/
def stumble : List (Nat × Action) :=
  [.callReceive, .received (.ok [greeting]), .push, .takeRaw 0, .decode 0, .offer 0,
    .takeDecoded 0, .start 0, .proceed 0, .proceed 0].map (0, ·)

/-- Where these steps lead. -/
def stumbled : List Remark × Unsettled × List (Track × Pipeline) :=
  (clumsy.recount [] ∅ [(.initial clumsy, .initial clumsy)] stumble).get rfl

theorem stumbled_chronicle : clumsy.Chronicle stumbled.1 stumbled.2.1 stumbled.2.2 :=
  Consumer.Chronicle.idle.begin.recount (Option.some_get _).symm

/-- The oddity in the place of the greeting. -/
def oddly : Nat → Nat → Option Received
  | 0, 0 => some oddity
  | _, _ => none

theorem oddity_stands : clumsy.Stands clumsy (oddly 0) [greeting] where
  kept _ _ _ _ _ _ _ := rfl
  record := by
    rintro (_ | n) m m' ⟨⟩ ⟨⟩
    rfl
  readable := by
    rintro (_ | n) m m' ⟨⟩ ⟨⟩
    exact ⟨⟨_, rfl⟩, ⟨_, rfl⟩⟩

theorem stumbled_replaces : clumsy.Replaces clumsy oddly stumbled.1 stumbled.2.2 where
  settings := rfl
  stands := by
    intro k t p hk
    have all : stumbled.2.2.map (·.1.received) = [[greeting]] := rfl
    have own : [[greeting]][k]? = some t.received := by
      rw [← all, List.getElem?_map, hk]
      rfl
    cases k with
    | zero => exact Option.some.inj own ▸ oddity_stands
    | succ k => cases own
  allows := by
    intro y mem n m' number swapped
    have log : stumbled.1.map (·.event) = [.received [greeting], .buffered greeting,
      .decoded greeted, .started greeted, .returned greeted (.panicked "oops"),
      .failed greeted (.panicked "oops"), .settled greeted] := rfl
    have listed := List.mem_map_of_mem (f := (·.event)) mem
    rw [log] at listed
    refine ⟨fun e same => ?_, fun e stage same => ?_, fun e error same e' read => ?_⟩
    · rw [same] at listed
      simp at listed
    · rw [same] at listed
      simp at listed
    · obtain rfl : oddity = m' := by
        match y.run, n, swapped with
        | 0, 0, rfl => rfl
      cases read
      exact ⟨_, .refused rfl⟩

/-- The same steps, but for the last one: the handler is about to panic. -/
def stumbling : List Remark × Unsettled × List (Track × Pipeline) :=
  (clumsy.recount [] ∅ [(.initial clumsy, .initial clumsy)] stumble.dropLast).get rfl

theorem stumbling_chronicle : clumsy.Chronicle stumbling.1 stumbling.2.1 stumbling.2.2 :=
  Consumer.Chronicle.idle.begin.recount (Option.some_get _).symm

/-- The only worker of the run is lost. -/
theorem stumbling_lost : ∃ t p x, clumsy.Chronicle stumbling.1 stumbling.2.1 [(t, p)] ∧
    p.lose stumbling.2.1 0 = some x ∧ x.pipeline.cancelled = false ∧
    x.pipeline.workers = [.stopped] ∧ Pipeline.Endures clumsy [0] x.pipeline := by
  obtain ⟨⟨t, p⟩, alone⟩ := List.length_eq_one_iff.1 (rfl : stumbling.2.2.length = 1)
  have chronicle : clumsy.Chronicle stumbling.1 stumbling.2.1 [(t, p)] :=
    alone ▸ stumbling_chronicle
  have states : stumbling.2.2.map (fun run => (run.2.workers, run.2.cancelled)) =
    [([.handling greeted (.finish (.panicked "oops"))], false)] := rfl
  obtain ⟨workers, running⟩ : p.workers = [.handling greeted (.finish (.panicked "oops"))] ∧
      p.cancelled = false := by
    simpa [alone] using states
  have lost : p.lose stumbling.2.1 0 = some ⟨stumbling.2.1, p.setWorker 0 .stopped,
      [.returned greeted (.panicked "oops")]⟩ := by
    rw [Pipeline.lose, workers]
    rfl
  have stopped : (p.setWorker 0 .stopped).workers = [.stopped] := by
    rw [Pipeline.setWorker_workers, workers]
    rfl
  have tracked : Pipeline.Tracked clumsy t p := chronicle.tracked (k := 0) rfl
  exact ⟨t, p, _, chronicle, lost, running, stopped, tracked.endures.lose lost⟩

end Sample

namespace Consumer

/-- A consumer loses its only worker: its run, which was not asked to end, never calls a handler
again, and the record of the delivery stays. -/
theorem Chronicle.worker_lost : ∃ t p x,
    Sample.clumsy.Chronicle Sample.stumbling.1 Sample.stumbling.2.1 [(t, p)] ∧
    p.lose Sample.stumbling.2.1 0 = some x ∧ Pipeline.Endures Sample.clumsy [0] x.pipeline ∧
    x.pipeline.cancelled = false ∧ x.pipeline.workers = [.stopped] ∧
    Sample.greeted.record ∈ x.unsettled.records ∧
    ∀ t t' p', Pipeline.Continues Sample.clumsy t x.pipeline t' p' →
      p'.workers[0]? = some .stopped := by
  obtain ⟨t, p, x, chronicle, lost, running, stopped, endures⟩ := Sample.stumbling_lost
  have kept : Sample.greeted.record ∈ Sample.stumbling.2.1.records := by decide +kernel
  have loses := Pipeline.loses (c := Sample.clumsy) lost
  exact ⟨t, p, x, chronicle, lost, endures, running, stopped, loses.table.symm ▸ kept, loses.stays⟩

theorem Chronicle.contained_of_stumble :
    Sample.clumsy.Chronicle Sample.stumbled.1 Sample.stumbled.2.1 Sample.stumbled.2.2 ∧
    Sample.clumsy.Replaces Sample.clumsy Sample.oddly Sample.stumbled.1 Sample.stumbled.2.2 ∧
    (∃ t p, Sample.stumbled.2.2 = [(t, p)] ∧ p.workers = [.idle] ∧
      Sample.clumsy.Contained Sample.stumbled.2.1 t p ∧
      ∃ log' t', Sample.clumsy.Chronicle log' Sample.stumbled.2.1 [(t', p)] ∧
        t'.received = [Sample.oddity]) ∧
    ∃ p, Pipeline.Endures Sample.clumsy [0] p ∧ Pipeline.Short Sample.clumsy [0] p := by
  obtain ⟨contained, replaced, short⟩ := Sample.stumbled_chronicle.contained
  obtain ⟨log', runs', h', counterpart, same⟩ := replaced _ _ Sample.stumbled_replaces
  have states :
      Sample.stumbled.2.2.map (fun run => (run.1.received, run.1.pending, run.2.workers)) =
        [([Sample.greeting], [], [.idle])] := rfl
  obtain ⟨⟨t, p⟩, single⟩ :=
    List.length_eq_one_iff.1 (rfl : Sample.stumbled.2.2.length = 1)
  obtain ⟨received, pending, workers⟩ :
      t.received = [Sample.greeting] ∧ t.pending = [] ∧ p.workers = [.idle] := by
    simpa [single] using states
  have first : Sample.stumbled.2.2[0]? = some (t, p) := by rw [single]; rfl
  obtain ⟨t', ht'⟩ := same 0 t p first (by simp [pending])
  obtain ⟨t'', p'', hk', -, received'⟩ := counterpart.each 0 t p first
  cases ht'.symm.trans hk'
  have alone : runs' = [(t', p)] := by
    obtain ⟨run, alone⟩ := List.length_eq_one_iff.1 counterpart.length
    rw [alone] at ht' ⊢
    exact congrArg (fun run => [run]) (Option.some.inj ht')
  have odd : t'.received = [Sample.oddity] := by
    rw [received', received]
    rfl
  obtain ⟨-, -, x, -, -, -, -, endures⟩ := Sample.stumbling_lost
  exact ⟨Sample.stumbled_chronicle, Sample.stumbled_replaces,
    ⟨t, p, single, workers, contained 0 t p first, log', t', alone ▸ h', odd⟩,
    x.pipeline, endures, (short _ _ endures).1⟩

end Consumer

end Courier
