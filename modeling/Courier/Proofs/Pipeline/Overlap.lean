import Courier.Proofs.Pipeline.Chronicle
import Courier.Proofs.Pipeline.Pending
import Mathlib.Data.List.Dedup

/-!
# Deliveries of one message that overlap

The table of unsettled deliveries keeps one record for a message. When a message is decoded again
while an earlier delivery is still engaged, the record of the later delivery takes the place of the
earlier one, and when the later delivery is settled first, the message has no record any more,
although the earlier delivery is still in the hand of a worker. The log of all runs says when this
is so.

## Main definitions

* `decodedIn`, `settledIn`: the deliveries that events decode and settle.
* `Outstanding`: a delivery that has been decoded, and neither settled nor followed by another.

## Main results

* `Consumer.Chronicle.engaged_perm`: what is decoded and not settled is engaged.
* `Consumer.Chronicle.mem_records_iff`: the table has the records of the outstanding deliveries.
* `Consumer.Chronicle.untracked_when_overtaken`: which messages have no record, and how many.
-/

namespace Courier

/-- The envelope that a message is decoded to. -/
def Event.decoding? : Event → Option Envelope
  | .decoded e => some e
  | _ => none

/-- The envelope whose delivery is settled. -/
def Event.settling? : Event → Option Envelope
  | .settled e => some e
  | _ => none

/-- The deliveries that are decoded, in order. -/
def decodedIn (events : List Event) : List Envelope :=
  events.filterMap Event.decoding?

/-- The deliveries that are settled, in order. -/
def settledIn (events : List Event) : List Envelope :=
  events.filterMap Event.settling?

/-- The delivery has been decoded; since then no delivery of its message has been decoded, and none
with its record has been settled. -/
def Outstanding (events : List Event) (e : Envelope) : Prop :=
  ∃ before after, events = before ++ .decoded e :: after ∧
    (∀ e' ∈ decodedIn after, e'.id ≠ e.id) ∧ ∀ e' ∈ settledIn after, e'.record ≠ e.record

/-- The delivery of the message that was decoded last has been settled. -/
def Overtaken (events : List Event) (id : MessageId) : Prop :=
  ∃ before e after, events = before ++ .decoded e :: after ∧ e.id = id ∧
    (∀ e' ∈ decodedIn after, e'.id ≠ id) ∧ ∃ e' ∈ settledIn after, e'.record = e.record

variable {events new : List Event} {e e' : Envelope}

theorem mem_decodedIn : e ∈ decodedIn events ↔ .decoded e ∈ events := by
  rw [decodedIn, List.mem_filterMap]
  constructor
  · rintro ⟨event, mem, same⟩
    cases event <;> cases same
    exact mem
  · exact fun mem => ⟨_, mem, rfl⟩

theorem mem_settledIn : e ∈ settledIn events ↔ .settled e ∈ events := by
  rw [settledIn, List.mem_filterMap]
  constructor
  · rintro ⟨event, mem, same⟩
    cases event <;> cases same
    exact mem
  · exact fun mem => ⟨_, mem, rfl⟩

@[simp] theorem decodedIn_nil : decodedIn [] = [] := rfl

@[simp] theorem settledIn_nil : settledIn [] = [] := rfl

@[simp] theorem decodedIn_decoded (e : Envelope) : decodedIn [.decoded e] = [e] := rfl

@[simp] theorem settledIn_decoded (e : Envelope) : settledIn [.decoded e] = [] := rfl

theorem decodedIn_append (events new : List Event) :
    decodedIn (events ++ new) = decodedIn events ++ decodedIn new :=
  List.filterMap_append

theorem settledIn_append (events new : List Event) :
    settledIn (events ++ new) = settledIn events ++ settledIn new :=
  List.filterMap_append

/-- Without new decodings a delivery stays outstanding unless it is settled. -/
theorem outstanding_append (none_ : decodedIn new = []) : Outstanding (events ++ new) e ↔
    Outstanding events e ∧ ∀ e' ∈ settledIn new, e'.record ≠ e.record := by
  constructor
  · rintro ⟨before, after, split, last, unsettled⟩
    have within : ∃ after', events = before ++ .decoded e :: after' ∧ after = after' ++ new := by
      have elsewhere : .decoded e ∉ new := fun mem => by
        have := mem_decodedIn.2 mem
        rw [none_] at this
        nomatch this
      rcases List.append_eq_append_iff.1 split with ⟨rest, rfl, late⟩ | ⟨rest, rfl, early⟩
      · exact absurd (by simp [late]) elsewhere
      · cases rest with
        | nil =>
          have first : .decoded e ∈ [] ++ new := early ▸ List.mem_cons_self
          exact absurd first elsewhere
        | cons event rest =>
          obtain ⟨rfl, rfl⟩ := List.cons.inj early
          exact ⟨rest, rfl, rfl⟩
    obtain ⟨after', rfl, rfl⟩ := within
    rw [decodedIn_append, List.forall_mem_append] at last
    rw [settledIn_append, List.forall_mem_append] at unsettled
    exact ⟨⟨before, after', rfl, last.1, unsettled.1⟩, unsettled.2⟩
  · rintro ⟨⟨before, after, rfl, last, unsettled⟩, spared⟩
    refine ⟨before, after ++ new, by simp, ?_, ?_⟩
    · rwa [decodedIn_append, none_, List.append_nil]
    · rw [settledIn_append, List.forall_mem_append]
      exact ⟨unsettled, spared⟩

theorem outstanding_snoc_decoded : Outstanding (events ++ [.decoded e']) e ↔
    e = e' ∨ Outstanding events e ∧ e.id ≠ e'.id := by
  constructor
  · rintro ⟨before, after, split, last, unsettled⟩
    rcases List.eq_nil_or_concat' after with rfl | ⟨after, event, rfl⟩
    · exact .inl (by simpa using (List.append_inj_right' split rfl).symm)
    · rw [← List.cons_append, ← List.append_assoc] at split
      obtain ⟨rfl, same⟩ := List.append_inj' split rfl
      obtain rfl : Event.decoded e' = event := by simpa using same
      rw [decodedIn_append, List.forall_mem_append] at last
      rw [settledIn_append, List.forall_mem_append] at unsettled
      refine .inr ⟨⟨before, after, rfl, last.1, unsettled.1⟩, fun same => ?_⟩
      exact last.2 e' (by simp) same.symm
  · rintro (rfl | ⟨⟨before, after, rfl, last, unsettled⟩, other⟩)
    · exact ⟨events, [], rfl, by simp [decodedIn], by simp [settledIn]⟩
    · refine ⟨before, after ++ [.decoded e'], by simp, ?_, ?_⟩
      · rw [decodedIn_append, List.forall_mem_append]
        exact ⟨last, by simpa using other.symm⟩
      · rw [settledIn_append, List.forall_mem_append]
        exact ⟨unsettled, by simp⟩

theorem exists_last (mem : e ∈ decodedIn events) : ∃ before e' after,
    events = before ++ .decoded e' :: after ∧ e'.id = e.id ∧
      ∀ e'' ∈ decodedIn after, e''.id ≠ e.id := by
  induction events generalizing e with
  | nil => nomatch mem
  | cons event events ih =>
    by_cases again : ∃ e' ∈ decodedIn events, e'.id = e.id
    · obtain ⟨e', mem', same⟩ := again
      obtain ⟨before, last, after, rfl, own, others⟩ := ih mem'
      exact ⟨event :: before, last, after, rfl, own.trans same, same ▸ others⟩
    · rcases List.mem_cons.1 (mem_decodedIn.1 mem) with rfl | later
      · exact ⟨[], e, events, rfl, rfl, fun e' mem' same => again ⟨e', mem', same⟩⟩
      · exact absurd ⟨e, mem_decodedIn.2 later, rfl⟩ again

private theorem eq_of_last {rest after after' : List Event}
    (late : .decoded e :: after = rest ++ .decoded e' :: after')
    (last : ∀ e'' ∈ decodedIn after, e''.id ≠ e'.id) : e' = e ∧ after' = after := by
  cases rest with
  | nil =>
    obtain ⟨first, rfl⟩ := List.cons.inj late
    cases first
    exact ⟨rfl, rfl⟩
  | cons event rest =>
    obtain ⟨-, rfl⟩ := List.cons.inj late
    exact absurd rfl (last e' (mem_decodedIn.2 (by simp)))

/-- A message is decoded for the last time once. -/
theorem last_unique {before before' after after' : List Event}
    (split : events = before ++ .decoded e :: after)
    (split' : events = before' ++ .decoded e' :: after') (same : e'.id = e.id)
    (last : ∀ e'' ∈ decodedIn after, e''.id ≠ e.id)
    (last' : ∀ e'' ∈ decodedIn after', e''.id ≠ e.id) : e' = e ∧ after' = after := by
  rcases List.append_eq_append_iff.1 (split.symm.trans split') with
    ⟨rest, -, late⟩ | ⟨rest, -, late⟩
  · exact eq_of_last late (same ▸ last)
  · obtain ⟨rfl, rfl⟩ := eq_of_last late last'
    exact ⟨rfl, rfl⟩

theorem overtaken_iff (mem : e ∈ decodedIn events) :
    Overtaken events e.id ↔ ¬∃ e', e'.id = e.id ∧ Outstanding events e' := by
  constructor
  · rintro ⟨before, e₁, after, split, same, last, e', settled, record⟩
      ⟨e₂, same', before', after', split', last', unsettled⟩
    obtain ⟨rfl, rfl⟩ := last_unique split split' (same'.trans same.symm)
      (same.symm ▸ last) (fun e'' mem => same ▸ same' ▸ last' e'' mem)
    exact unsettled e' settled record
  · intro none_
    obtain ⟨before, e', after, split, same, last⟩ := exists_last mem
    by_contra spared
    refine none_ ⟨e', same, before, after, split, same.symm ▸ last, fun e'' settled record => ?_⟩
    exact spared ⟨before, e', after, split, same, last, e'', settled, record⟩

/-! ### What a step does -/

/-- When one element of a list changes, only its share of the whole changes. -/
theorem flatMap_set {α β : Type} (f : α → List β) {xs : List α} {k : Nat} {x : α}
    (at_ : xs[k]? = some x) : ∃ rest, (xs.flatMap f).Perm (f x ++ rest) ∧
      ∀ y, ((xs.set k y).flatMap f).Perm (f y ++ rest) := by
  have middle (y : α) (before after : List α) : ((before ++ y :: after).flatMap f).Perm
      (f y ++ (before ++ after).flatMap f) := by
    simpa [List.flatMap_append] using List.perm_append_comm_assoc _ _ _
  obtain ⟨bound, rfl⟩ := List.getElem?_eq_some_iff.1 at_
  refine ⟨(xs.take k ++ xs.drop (k + 1)).flatMap f, ?_, fun y => ?_⟩
  · have split := middle xs[k] (xs.take k) (xs.drop (k + 1))
    rwa [List.getElem_cons_drop, List.take_append_drop] at split
  · rw [List.set_eq_take_append_cons_drop, if_pos bound]
    exact middle y _ _

namespace Worker

variable {c : Consumer} {cancelled : Bool} {w : Nat} {a : Action} {s s' : Worker}

theorem Advance.settledIn_eq (h : Advance c cancelled w e a s events s') :
    decodedIn events = [] ∧ settledIn events = [] := by
  cases h <;> exact ⟨rfl, rfl⟩

theorem Release.settledIn_eq (h : Release c cancelled w e a s events) :
    decodedIn (events ++ [.settled e]) = [] ∧ settledIn (events ++ [.settled e]) = [e] := by
  cases h <;> exact ⟨rfl, rfl⟩

end Worker

namespace Pipeline

variable {c : Consumer} {u : Unsettled} {p : Pipeline} {a : Action} {x : Transition}

theorem settledIn_map (es : List Envelope) :
    decodedIn (es.map .settled) = [] ∧ settledIn (es.map .settled) = es := by
  induction es with
  | nil => exact ⟨rfl, rfl⟩
  | cons e es ih => exact ⟨ih.1, congrArg (e :: ·) ih.2⟩

theorem settledIn_finish (u : Unsettled) (p : Pipeline) :
    decodedIn (finish u p).events = [] ∧ settledIn (finish u p).events = p.decoded := by
  obtain ⟨decoded, settled⟩ := settledIn_map p.decoded
  constructor
  · show decodedIn (p.decoded.map .settled ++ [.stopped]) = []
    rw [decodedIn_append, decoded]
    rfl
  · show settledIn (p.decoded.map .settled ++ [.stopped]) = p.decoded
    rw [settledIn_append, settled]
    exact List.append_nil _

theorem farewell_eq (s : Poller) : decodedIn s.farewell = [] ∧ settledIn s.farewell = [] := by
  cases s <;> exact ⟨rfl, rfl⟩

/-- A step that decodes does nothing else, and any other step takes the records of those deliveries
that it settles out of the table. -/
theorem Moves.table (h : Moves c u p a x) (hu : u.Distinct) :
    (∃ e, x.events = [.decoded e] ∧ x.unsettled = u.insert e.id e.receipt) ∨
    decodedIn x.events = [] ∧ ∀ r, r ∈ x.unsettled.records ↔
      r ∈ u.records ∧ ∀ e ∈ settledIn x.events, e.record ≠ r := by
  have still {events : List Event} (none_ : settledIn events = []) (r : MessageId × Receipt) :
      r ∈ u.records ↔ r ∈ u.records ∧ ∀ e ∈ settledIn events, e.record ≠ r := by
    simp [none_]
  cases h with
  | decode at_ read => exact .inl ⟨_, rfl, rfl⟩
  | advance at_ step => exact .inr ⟨step.settledIn_eq.1, still step.settledIn_eq.2⟩
  | @release w e a s events at_ step =>
    refine .inr ⟨step.settledIn_eq.1, fun r => ?_⟩
    show r ∈ (u.settleEnvelope e).records ↔ _ ∧ ∀ e' ∈ settledIn (events ++ [.settled e]), _
    rw [step.settledIn_eq.2, List.forall_mem_singleton]
    exact (Unsettled.mem_settle hu).trans (and_congr_right fun _ => ne_comm)
  | stopPoller running shutdown => exact .inr ⟨(farewell_eq _).1, still (farewell_eq _).2⟩
  | finish complete =>
    refine .inr ⟨(settledIn_finish u p).1, fun r => ?_⟩
    rw [(settledIn_finish u p).2]
    exact (Unsettled.mem_settleEach hu).trans (and_congr_right fun _ =>
      forall₂_congr fun _ _ => ne_comm)
  | _ => exact .inr ⟨rfl, still rfl⟩

/-- A worker changes, and the decoded buffer with it: when what is decoded, in the buffer or in the
hand of the worker before is settled, in the buffer or in its hand afterwards, this is so for all
envelopes. -/
theorem engaged_perm_of_worker {w : Nat} {s s' : Worker} (at_ : p.workers[w]? = some s)
    {decoded settled buffer : List Envelope}
    (own : (decoded ++ p.decoded ++ s.envelope?.toList).Perm
      (settled ++ buffer ++ s'.envelope?.toList)) :
    (decoded ++ p.engaged).Perm
      (settled ++ ({ p with decoded := buffer }.setWorker w s').engaged) := by
  obtain ⟨others, before, after⟩ := flatMap_set (fun s => s.envelope?.toList) at_
  simp only [← List.filterMap_eq_flatMap_toList] at before after
  show (decoded ++ (p.decoded ++ p.workers.filterMap Worker.envelope?)).Perm
    (settled ++ (buffer ++ (p.workers.set w s').filterMap Worker.envelope?))
  simp only [← List.append_assoc]
  calc decoded ++ p.decoded ++ p.workers.filterMap Worker.envelope?
    List.Perm _ (decoded ++ p.decoded ++ (s.envelope?.toList ++ others)) := before.append_left _
    List.Perm _ (settled ++ buffer ++ (s'.envelope?.toList ++ others)) := by
      simpa only [List.append_assoc] using own.append_right others
    List.Perm _ (settled ++ buffer ++ (p.workers.set w s').filterMap Worker.envelope?) :=
      (after s').symm.append_left _

/-- What is decoded or engaged before a step is settled by it or engaged afterwards. -/
theorem Moves.engaged_perm (h : Moves c u p a x) :
    (decodedIn x.events ++ p.engaged).Perm (settledIn x.events ++ x.pipeline.engaged) := by
  cases h with
  | takeDecoded idle first running =>
    exact engaged_perm_of_worker idle (by simpa [first, Worker.envelope?] using
      (List.perm_append_singleton _ _).symm)
  | takeRaw idle none_ first running => exact engaged_perm_of_worker idle (.refl _)
  | stopWorker idle shutdown => exact engaged_perm_of_worker idle (.refl _)
  | decode at_ read =>
    exact engaged_perm_of_worker at_ (by simpa [Worker.envelope?] using
      (List.perm_append_singleton _ _).symm)
  | reject at_ unread => exact engaged_perm_of_worker at_ (.refl _)
  | enqueue at_ room => exact engaged_perm_of_worker at_ (by simp [Worker.envelope?])
  | keep at_ full => exact engaged_perm_of_worker at_ (.refl _)
  | advance at_ step =>
    obtain ⟨before, after⟩ := step.envelope_eq
    rw [step.settledIn_eq.1, step.settledIn_eq.2]
    exact engaged_perm_of_worker at_ (by rw [before, after])
  | @release w e a s events at_ step =>
    show (decodedIn (events ++ [.settled e]) ++ p.engaged).Perm
      (settledIn (events ++ [.settled e]) ++ (p.setWorker w .idle).engaged)
    rw [step.settledIn_eq.1, step.settledIn_eq.2]
    refine engaged_perm_of_worker at_ ?_
    rw [step.envelope_eq]
    simp [Worker.envelope?]
  | stopPoller running shutdown =>
    rw [(farewell_eq _).1, (farewell_eq _).2]
    exact .refl _
  | finish complete =>
    rw [(settledIn_finish u p).1, (settledIn_finish u p).2]
    exact .refl _
  | _ => exact .refl _

end Pipeline

/-! ### What the log says -/

theorem Unsettled.contains_iff {u : Unsettled} (h : u.Distinct) {id : MessageId} :
    u.contains id = true ↔ id ∈ u.records.map (·.1) := by
  rw [contains, Option.isSome_iff_exists, List.mem_map]
  constructor
  · rintro ⟨receipt, found⟩
    exact ⟨_, (find?_eq_some h).1 found, rfl⟩
  · rintro ⟨r, mem, rfl⟩
    exact ⟨r.2, (find?_eq_some h).2 mem⟩

namespace Consumer.Chronicle

variable {c : Consumer} {log : List Remark} {u : Unsettled} {runs : List (Track × Pipeline)}

/-- What has been decoded has been settled or is engaged. -/
theorem engaged_perm (h : c.Chronicle log u runs) :
    (decodedIn (log.map (·.event))).Perm
      (settledIn (log.map (·.event)) ++ runs.flatMap (·.2.engaged)) := by
  induction h with
  | idle => exact .refl _
  | begin h ih =>
    have none_ : (Pipeline.initial c).engaged = [] := by
      simp [Pipeline.engaged, Pipeline.initial, Worker.envelope?, List.filterMap_replicate]
    simpa [none_] using ih
  | @step log u runs k t p a x h hk hx ih =>
    have moves := Pipeline.moves_of_step hx
    have said := (h.tracked hk).matches.map_remarks moves k p.cancelled
    obtain ⟨others, before, after⟩ := flatMap_set (fun run => run.2.engaged) hk
    have after : ((runs.set k (t.follow a x, x.pipeline)).flatMap (·.2.engaged)).Perm
        (x.pipeline.engaged ++ others) := after _
    have before : (runs.flatMap (·.2.engaged)).Perm (p.engaged ++ others) := before
    rw [List.map_append, said, decodedIn_append, settledIn_append]
    calc decodedIn (log.map (·.event)) ++ decodedIn x.events
      List.Perm _ (settledIn (log.map (·.event)) ++ (p.engaged ++ others) ++
          decodedIn x.events) := (ih.trans (before.append_left _)).append_right _
      List.Perm _ (settledIn (log.map (·.event)) ++ (decodedIn x.events ++ p.engaged) ++
          others) := by
        simp only [List.append_assoc]
        refine List.Perm.append_left _ ?_
        rw [← List.append_assoc]
        exact List.perm_append_comm
      List.Perm _ (settledIn (log.map (·.event)) ++ (settledIn x.events ++ x.pipeline.engaged) ++
          others) := (moves.engaged_perm.append_left _).append_right _
      List.Perm _ (settledIn (log.map (·.event)) ++ settledIn x.events ++
          (runs.set k (t.follow a x, x.pipeline)).flatMap (·.2.engaged)) := by
        simp only [List.append_assoc]
        exact (after.symm.append_left _).append_left _

/-- The table has the records of the outstanding deliveries. -/
theorem mem_records_iff (h : c.Chronicle log u runs) (r : MessageId × Receipt) :
    r ∈ u.records ↔ ∃ e, e.record = r ∧ Outstanding (log.map (·.event)) e := by
  induction h generalizing r with
  | idle =>
    refine ⟨nofun, ?_⟩
    rintro ⟨e, -, before, after, split, -⟩
    simp at split
  | begin h ih => exact ih r
  | @step log u runs k t p a x h hk hx ih =>
    have said := (h.tracked hk).matches.map_remarks (Pipeline.moves_of_step hx) k p.cancelled
    rw [List.map_append, said]
    rcases (Pipeline.moves_of_step hx).table h.serving.distinct with
      ⟨e', decoded, inserted⟩ | ⟨none_, kept⟩
    · rw [decoded, inserted, Unsettled.mem_insert, ih]
      constructor
      · rintro (rfl | ⟨⟨e, rfl, outstanding⟩, other⟩)
        · exact ⟨e', rfl, outstanding_snoc_decoded.2 (.inl rfl)⟩
        · exact ⟨e, rfl, outstanding_snoc_decoded.2 (.inr ⟨outstanding, other⟩)⟩
      · rintro ⟨e, rfl, outstanding⟩
        rcases outstanding_snoc_decoded.1 outstanding with rfl | ⟨outstanding, other⟩
        · exact .inl rfl
        · exact .inr ⟨⟨e, rfl, outstanding⟩, other⟩
    · rw [kept, ih]
      constructor
      · rintro ⟨⟨e, rfl, outstanding⟩, spared⟩
        exact ⟨e, rfl, (outstanding_append none_).2 ⟨outstanding, spared⟩⟩
      · rintro ⟨e, rfl, outstanding⟩
        obtain ⟨outstanding, spared⟩ := (outstanding_append none_).1 outstanding
        exact ⟨⟨e, rfl, outstanding⟩, spared⟩

theorem size_eq (h : c.Chronicle log u runs) : u.size =
    (((runs.flatMap (·.2.engaged)).map (·.id)).dedup.filter u.contains).length := by
  have distinct := h.serving.distinct
  have ids : (u.records.map (·.1)).Perm
      (((runs.flatMap (·.2.engaged)).map (·.id)).dedup.filter u.contains) := by
    refine (List.perm_ext_iff_of_nodup distinct ((List.nodup_dedup _).filter _)).2 fun id => ?_
    rw [List.mem_filter, List.mem_dedup, ← Unsettled.contains_iff distinct]
    refine ⟨fun there => ⟨?_, there⟩, And.right⟩
    obtain ⟨r, hr, rfl⟩ := List.mem_map.1 ((Unsettled.contains_iff distinct).1 there)
    obtain ⟨run, mem, e, engaged, rfl⟩ := h.serving.accountable r hr
    exact List.mem_map.2 ⟨e, List.mem_flatMap.2 ⟨run, mem, engaged⟩, rfl⟩
  rw [← ids.length_eq, List.length_map]
  rfl

/-- What the table says about overlapping deliveries. The deliveries that have been decoded are
those that have been settled and those that are engaged, each of them once. The table has the
receipt of the delivery of a message that was decoded last, unless this has been settled. So an
engaged message has no record exactly when the delivery decoded last has been settled before an
earlier one, and the table counts all other engaged messages. With receipts that differ, a message
whose last delivery is engaged has a record. -/
theorem untracked_when_overtaken (h : c.Chronicle log u runs) :
    let events := log.map (·.event)
    let held := runs.flatMap (·.2.engaged)
    (decodedIn events).Perm (settledIn events ++ held) ∧
    (∀ id receipt, u.find? id = some receipt ↔
      ∃ e, e.record = (id, receipt) ∧ Outstanding events e) ∧
    (∀ e ∈ held, u.contains e.id = false ↔ Overtaken events e.id) ∧
    u.size + ((held.map (·.id)).dedup.filter fun id => !u.contains id).length =
      (held.map (·.id)).dedup.length ∧
    (((decodedIn events).map Envelope.record).Nodup → ∀ e ∈ held, ∀ before after,
      events = before ++ .decoded e :: after → (∀ e' ∈ decodedIn after, e'.id ≠ e.id) →
        u.contains e.id = true) := by
  intro events held
  have distinct := h.serving.distinct
  have found (id : MessageId) (receipt : Receipt) : u.find? id = some receipt ↔
      ∃ e, e.record = (id, receipt) ∧ Outstanding events e :=
    (Unsettled.find?_eq_some distinct).trans (h.mem_records_iff _)
  have tracked (id : MessageId) : u.contains id = true ↔
      ∃ e, e.id = id ∧ Outstanding events e := by
    rw [Unsettled.contains, Option.isSome_iff_exists]
    constructor
    · rintro ⟨receipt, kept⟩
      obtain ⟨e, record, outstanding⟩ := (found id receipt).1 kept
      exact ⟨e, congrArg Prod.fst record, outstanding⟩
    · rintro ⟨e, rfl, outstanding⟩
      exact ⟨e.receipt, (found e.id e.receipt).2 ⟨e, rfl, outstanding⟩⟩
  refine ⟨h.engaged_perm, found, fun e mem => ?_, ?_, fun fresh e mem before after split last => ?_⟩
  · have decoded : e ∈ decodedIn events :=
      h.engaged_perm.mem_iff.2 (List.mem_append_right _ mem)
    rw [overtaken_iff decoded, ← tracked, Bool.not_eq_true]
  · rw [h.size_eq]
    exact (List.length_eq_length_filter_add u.contains).symm
  · refine (tracked e.id).2 ⟨e, rfl, before, after, split, last, fun e' settled same => ?_⟩
    -- Both deliveries would have been decoded with the receipt that only one has.
    have apart := (h.engaged_perm.map Envelope.record).nodup_iff.1 fresh
    rw [List.map_append] at apart
    have settled' : e' ∈ settledIn events := by
      rw [mem_settledIn] at settled ⊢
      rw [split]
      exact List.mem_append_right _ (List.mem_cons_of_mem _ settled)
    exact List.disjoint_of_nodup_append apart (List.mem_map_of_mem settled')
      (same ▸ List.mem_map_of_mem mem)

end Consumer.Chronicle

/-! ### A greeting that is handled twice at a time -/

namespace Sample

/-- A consumer with two workers, whose handler takes its time with the first delivery of a message
and fails at once with any other. -/
def pair : Consumer where
  settings := { workers := 2 }
  registry := (∅ : Registry).add ⟨"Greeting", fun _ e =>
    .ok (if e.receiveCount = 1 then .sleep 5000 (.finish .ok) else .finish (.failed "later"))⟩
  queue := host.queue

/-- A greeting is delivered, its handler begins, the greeting is delivered once more, and the second
delivery fails. -/
def overtaking : List (Nat × Action) :=
  [.callReceive, .received (.ok [greeting]), .push, .takeRaw 0, .decode 0, .offer 0,
    .takeDecoded 0, .start 0, .callReceive, .received (.ok [repeated]), .push, .takeRaw 1,
    .decode 1, .offer 1, .takeDecoded 1, .start 1, .proceed 1].map (0, ·)

/-- Where these steps lead. -/
def overtaken : List Remark × Unsettled × List (Track × Pipeline) :=
  (pair.recount [] ∅ [(.initial pair, .initial pair)] overtaking).get rfl

theorem overtaken_chronicle : pair.Chronicle overtaken.1 overtaken.2.1 overtaken.2.2 :=
  Consumer.Chronicle.idle.begin.recount (Option.some_get _).symm

end Sample

namespace Consumer.Chronicle

/-- The greeting has no record, because its second delivery was decoded last and has been settled;
it is the only message that is engaged and not counted. -/
theorem untracked_when_overtaken_of_greeting :
    Overtaken (Sample.overtaken.1.map (·.event)) Sample.greeted.id ∧
    Sample.overtaken.2.1.size + 1 = 1 := by
  obtain ⟨-, -, overtaken, counted, -⟩ := Sample.overtaken_chronicle.untracked_when_overtaken
  have engaged : Sample.overtaken.2.2.flatMap (·.2.engaged) = [Sample.greeted] := rfl
  rw [engaged] at overtaken counted
  refine ⟨(overtaken _ (List.mem_singleton_self _)).1 rfl, counted⟩

/-- In one run with two workers a delivery has been decoded and not been settled, a worker has its
envelope in hand, and the table has no record of the message and none at all. -/
theorem greeting_untracked :
    Sample.pair.Chronicle Sample.overtaken.1 Sample.overtaken.2.1 Sample.overtaken.2.2 ∧
    Sample.overtaken.2.2.length = 1 ∧
    Sample.overtaken.2.2.flatMap (·.2.engaged) = [Sample.greeted] ∧
    Sample.greeted ∈ decodedIn (Sample.overtaken.1.map (·.event)) ∧
    (∀ e ∈ settledIn (Sample.overtaken.1.map (·.event)), e.receipt ≠ Sample.greeted.receipt) ∧
    Sample.overtaken.2.1.contains Sample.greeted.id = false ∧ Sample.overtaken.2.1.size = 0 := by
  have decoded : ∃ e, decodedIn (Sample.overtaken.1.map (·.event)) = [Sample.greeted, e] :=
    ⟨_, rfl⟩
  have settled : ∃ e, settledIn (Sample.overtaken.1.map (·.event)) = [e] ∧
      e.receipt = Sample.repeated.receipt := ⟨_, rfl, rfl⟩
  refine ⟨Sample.overtaken_chronicle, rfl, rfl, ?_, ?_, rfl, rfl⟩
  · obtain ⟨e, both⟩ := decoded
    simp [both]
  · obtain ⟨e, one, receipt⟩ := settled
    rw [one, List.forall_mem_singleton, receipt]
    decide

end Consumer.Chronicle

end Courier
