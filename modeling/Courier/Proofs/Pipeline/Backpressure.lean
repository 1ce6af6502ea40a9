import Courier.Proofs.Pipeline.Pending

/-!
# Backpressure

Handlers that take their time, or never end, hold up the intake of messages. A worker takes a
message from the raw buffer only when the decoded buffer is empty, so the envelopes there and the
busy workers together are never more than the workers, however large the buffers are. The poller
receives again only when the messages it has received are in the raw buffer.

All this is about a consumer with one run, whose backend gives out no more messages at once than it
is asked for.

## Main definitions

* `Solo`: a consumer with one run.
* `Solo.Leads`, `Solo.Reached`: the states to which steps lead.
* `Pipeline.Bounded`: the limits of a pipeline.
* `Track.pending`: the deliveries with which a run is not done.

## Main results

* `Pipeline.Moves.bounded`: a step keeps the limits.
* `Solo.Reached.backpressure`: the limits of a run, and of what it receives while its handlers are
  stuck.
-/

namespace Courier

/-- Whether a worker is in a handler. -/
def Worker.isHandling : Worker → Bool
  | .handling _ _ => true
  | _ => false

theorem Worker.Carries.isBusy {c : Consumer} {s : Worker} {d : Delivery} (h : s.Carries c d) :
    s.isBusy = true := by
  cases s with
  | idle | stopped => exact h.elim
  | _ => rfl

/-! ### The limits of a pipeline -/

namespace Pipeline

/-- A pipeline is within its limits. -/
structure Bounded (c : Consumer) (p : Pipeline) : Prop where
  workers : p.workers.length = c.settings.workers
  busy : p.decoded.length + p.workers.countP Worker.isBusy ≤ c.settings.workers
  raw : p.raw.length ≤ c.settings.rawCapacity
  held : p.poller.held.length ≤ c.settings.batch

variable {c : Consumer} {u : Unsettled} {p : Pipeline} {a : Action} {x : Transition}
  {w : Nat} {s s' : Worker}

theorem countP_setWorker (at_ : p.workers[w]? = some s) (s' : Worker) :
    (p.setWorker w s').workers.countP Worker.isBusy + s.isBusy.toNat =
      p.workers.countP Worker.isBusy + s'.isBusy.toNat := by
  obtain ⟨hw, eq⟩ := List.getElem?_eq_some_iff.1 at_
  have counted : s.isBusy.toNat ≤ p.workers.countP Worker.isBusy := by
    cases busy : s.isBusy with
    | false => exact Nat.zero_le _
    | true => exact List.countP_pos_iff.2 ⟨s, List.mem_of_getElem? at_, busy⟩
  have set := List.countP_set (p := Worker.isBusy) (a := s') hw
  rw [eq] at set
  have ite_toNat (b : Bool) : (if b = true then 1 else 0) = b.toNat := by cases b <;> rfl
  rw [ite_toNat, ite_toNat] at set
  rw [setWorker_workers, set]
  omega

theorem Bounded.initial (c : Consumer) : Bounded c (.initial c) where
  workers := List.length_replicate
  busy := by simp [Pipeline.initial, List.countP_replicate, Worker.isBusy]
  raw := Nat.zero_le _
  held := Nat.zero_le _

/-- A pipeline stays within its limits when a worker and the decoded buffer change, and the two
together hold no more than before. -/
theorem Bounded.setWorker (h : Bounded c p) (at_ : p.workers[w]? = some s) {s' : Worker}
    {raw : List Received} {decoded : List Envelope} (shorter : raw.length ≤ p.raw.length)
    (balance : decoded.length + s'.isBusy.toNat ≤ p.decoded.length + s.isBusy.toNat) :
    Bounded c ({ p with raw, decoded }.setWorker w s') where
  workers := by rw [setWorker_workers, List.length_set, h.workers]
  busy := by
    have count : ({ p with raw, decoded }.setWorker w s').workers.countP Worker.isBusy +
        s.isBusy.toNat = p.workers.countP Worker.isBusy + s'.isBusy.toNat :=
      countP_setWorker (p := { p with raw, decoded }) at_ s'
    have busy := h.busy
    rw [setWorker_decoded]
    show decoded.length + _ ≤ _
    omega
  raw := Nat.le_trans shorter h.raw
  held := h.held

theorem Moves.bounded (h : Moves c u p a x) (within : a.batch.length ≤ c.settings.batch)
    (hp : Bounded c p) : Bounded c x.pipeline := by
  cases h with
  | push at_ room =>
    have held := hp.held
    rw [at_] at held
    refine ⟨hp.workers, hp.busy, ?_, ?_⟩
    · rw [List.length_append, List.length_singleton]
      exact room
    · rw [held_delivering]
      exact Nat.le_of_succ_le held
  | receive at_ => exact ⟨hp.workers, hp.busy, hp.raw, within⟩
  | callReceive | receiveFailed | receiveNothing | resume | stopPoller =>
    exact ⟨hp.workers, hp.busy, hp.raw, Nat.zero_le _⟩
  | cancel => exact ⟨hp.workers, hp.busy, hp.raw, hp.held⟩
  | finish complete =>
    have busy := hp.busy
    refine ⟨hp.workers, ?_, Nat.zero_le _, hp.held⟩
    show 0 + p.workers.countP Worker.isBusy ≤ c.settings.workers
    omega
  | @takeRaw w m rest idle none_ first running =>
    -- The decoded buffer is empty, so no more can be busy than there are workers.
    refine ⟨?_, ?_, ?_, hp.held⟩
    · rw [setWorker_workers, List.length_set]
      exact hp.workers
    · have most : (p.workers.set w (.decoding m)).countP Worker.isBusy ≤ _ :=
        List.countP_le_length
      rw [List.length_set, hp.workers] at most
      rw [setWorker_decoded, none_, List.length_nil, Nat.zero_add]
      exact most
    · have raw := hp.raw
      rw [first] at raw
      exact Nat.le_of_succ_le raw
  | takeDecoded idle first running =>
    exact hp.setWorker idle (Nat.le_refl _) (by simp [first, Worker.isBusy])
  | stopWorker idle shutdown => exact hp.setWorker idle (Nat.le_refl _) (Nat.le_refl _)
  | decode at_ read | keep at_ full => exact hp.setWorker at_ (Nat.le_refl _) (Nat.le_refl _)
  | reject at_ unread => exact hp.setWorker at_ (Nat.le_refl _) (Nat.le_succ _)
  | enqueue at_ room => exact hp.setWorker at_ (Nat.le_refl _) (by simp [Worker.isBusy])
  | advance at_ step =>
    obtain ⟨before, after⟩ := step.envelope_eq
    refine hp.setWorker at_ (Nat.le_refl _) (Nat.le_of_eq ?_)
    rw [Worker.isBusy_of_envelope before, Worker.isBusy_of_envelope after]
  | release at_ step =>
    exact hp.setWorker at_ (Nat.le_refl _) (Nat.add_le_add_left (Nat.zero_le _) _)

/-- The envelopes that are engaged are no more than those of the decoded buffer and the busy
workers. -/
theorem length_engaged_le (p : Pipeline) :
    p.engaged.length ≤ p.decoded.length + p.workers.countP Worker.isBusy := by
  rw [engaged, List.length_append, List.length_filterMap_eq_countP]
  refine Nat.add_le_add_left (List.countP_mono_left fun s _ held => ?_) _
  obtain ⟨e, held⟩ := Option.isSome_iff_exists.1 held
  exact Worker.isBusy_of_envelope held

/-- While no worker is idle, what a step receives stays with the poller and in the raw buffer,
unless the poller stops or has stopped. -/
theorem Moves.intake (h : Moves c u p a x) (busy : ∀ s ∈ p.workers, s ≠ .idle) :
    x.pipeline.raw.length + x.pipeline.poller.held.length =
        p.raw.length + p.poller.held.length + a.batch.length ∧
      (p.poller = .stopped → x.pipeline.poller = .stopped ∧ a.batch = []) ∨
    x.pipeline.poller = .stopped ∧ a.batch = [] := by
  have no_idle {w : Nat} (idle : p.workers[w]? = some .idle) : False :=
    busy .idle (List.mem_of_getElem? idle) rfl
  cases h with
  | takeDecoded idle | takeRaw idle | stopWorker idle => exact (no_idle idle).elim
  | callReceive at_ | receiveFailed at_ | resume at_ | receiveNothing at_ | receive at_ =>
    refine .inl ⟨?_, fun stopped => ?_⟩
    · rw [at_]
      rfl
    · rw [at_] at stopped
      cases stopped
  | @push m rest at_ room =>
    refine .inl ⟨?_, fun stopped => ?_⟩
    · have before : p.poller.held = m :: rest := by rw [at_]; rfl
      rw [held_delivering, before, List.length_append, List.length_singleton, List.length_cons]
      show _ = _ + 0
      omega
    · rw [at_] at stopped
      cases stopped
  | stopPoller running shutdown => exact .inr ⟨rfl, rfl⟩
  | finish complete =>
    simp only [canFinish, Bool.and_eq_true, decide_eq_true_eq] at complete
    exact .inr ⟨complete.1.2, rfl⟩
  | advance at_ step | release at_ step =>
    have quiet : a.batch = [] := by cases step <;> rfl
    rw [quiet]
    exact .inl ⟨rfl, fun stopped => ⟨stopped, rfl⟩⟩
  | _ => exact .inl ⟨rfl, fun stopped => ⟨stopped, rfl⟩⟩

end Pipeline

/-! ### The deliveries with which a run is not done -/

namespace Track

variable {c : Consumer} {t : Track} {p : Pipeline}

/-- The deliveries with which a run is not done. -/
def pending (t : Track) : List Delivery :=
  t.hand ++ t.raw ++ t.workers.reduceOption ++ t.decoded

private theorem length_reduceOption_le {workers : List Worker} {ds : List (Option Delivery)}
    (h : List.Forall₂ (Worker.Has c) workers ds) :
    ds.reduceOption.length ≤ workers.countP Worker.isBusy := by
  induction h with
  | nil => exact Nat.le_refl _
  | @cons s o workers ds has h ih =>
    rw [List.countP_cons]
    cases o with
    | none =>
      rw [List.reduceOption_cons_of_none]
      omega
    | some d =>
      have busy : s.isBusy = true := Worker.Carries.isBusy has
      rw [List.reduceOption_cons_of_some, List.length_cons, if_pos busy]
      omega

/-- In a pipeline within its limits only so many deliveries are pending. -/
theorem Matches.length_pending_le (h : t.Matches c p) (hp : p.Bounded c) :
    t.pending.length ≤ c.settings.workers + c.settings.rawCapacity + c.settings.batch := by
  have hand : t.hand.length = p.poller.held.length := by
    rw [← h.hand.1, List.length_map]
  have raw : t.raw.length = p.raw.length := by
    rw [← h.raw.1, List.length_map]
  have decoded : t.decoded.length = p.decoded.length := h.decoded.length_eq
  have workers := length_reduceOption_le h.workers
  obtain ⟨-, busy, rawLimit, heldLimit⟩ := hp
  simp only [pending, List.length_append]
  omega

end Track

theorem Pipeline.Tracked.length_received {c : Consumer} {t : Track} {p : Pipeline}
    (h : Tracked c t p) : t.received.length = t.pending.length + t.ended.length := by
  have perm := h.accounted.numbers_perm.length_eq
  rw [List.length_map, List.length_range] at perm
  rw [← perm, ← List.length_append]
  rfl

/-- When the poller is about to receive, everything that was received has entered the raw buffer,
in order. -/
theorem Pipeline.Tracked.all_entered {c : Consumer} {t : Track} {p : Pipeline}
    (h : Tracked c t p) (at_ : p.poller = .ready) :
    t.events.filterMap Event.entering? = t.events.flatMap Event.batch := by
  obtain ⟨rest, split, held | stopped⟩ := h.inOrder
  · rw [at_] at held
    rw [← split, held]
    exact (List.append_nil _).symm
  · rw [at_] at stopped
    cases stopped

/-! ### A consumer with one run -/

/-- A consumer with one run: its table, and the run with its track. -/
structure Solo where
  unsettled : Unsettled := ∅
  track : Track
  pipeline : Pipeline

namespace Solo

/-- The run begins. -/
def initial (c : Consumer) : Solo where
  track := .initial c
  pipeline := .initial c

/-- The state after a step, if it is possible. -/
def next (c : Consumer) (s : Solo) (a : Action) : Option Solo :=
  (s.pipeline.step c s.unsettled a).map fun x =>
    ⟨x.unsettled, s.track.follow a x, x.pipeline⟩

/-- Whether all workers are in handlers. -/
def isStuck (s : Solo) : Bool :=
  s.pipeline.workers.all Worker.isHandling

/-- Steps lead from one state to another, and all states on the way are among the given ones. A
receive call never returns more messages than it asks for. -/
inductive Leads (c : Consumer) (keep : Solo → Bool) (s : Solo) : Solo → Prop
  | refl : Leads c keep s s
  | step {s' s'' a} (h : Leads c keep s s') (within : a.batch.length ≤ c.settings.batch)
      (made : s'.next c a = some s'') (kept : keep s'' = true) : Leads c keep s s''

/-- The states to which the run may come. -/
def Reached (c : Consumer) : Solo → Prop :=
  Leads c (fun _ => true) (initial c)

/-- Makes the given steps, if they are possible and stay among the given states. -/
def replay (c : Consumer) (keep : Solo → Bool) : Solo → List Action → Option Solo
  | s, [] => some s
  | s, a :: as =>
    if a.batch.length ≤ c.settings.batch then
      (s.next c a).bind fun s' => if keep s' then replay c keep s' as else none
    else none

variable {c : Consumer} {keep : Solo → Bool} {s s' last : Solo}

theorem Leads.replay {as : List Action} (h : Leads c keep s s')
    (made : s'.replay c keep as = some last) : Leads c keep s last := by
  induction as generalizing s' with
  | nil =>
    cases made
    exact h
  | cons a as ih =>
    rw [Solo.replay] at made
    split at made
    · next within =>
      obtain ⟨s'', next, made⟩ := Option.bind_eq_some_iff.1 made
      split at made
      · next kept => exact ih (h.step within next kept) made
      · cases made
    · cases made

theorem Reached.serving (h : Reached c s) : c.Serving s.unsettled [(s.track, s.pipeline)] := by
  induction h with
  | refl => exact Consumer.Serving.idle.begin
  | step h within made kept ih =>
    obtain ⟨x, hx, rfl⟩ := Option.map_eq_some_iff.1 made
    exact ih.step (k := 0) rfl hx

theorem Reached.tracked (h : Reached c s) : Pipeline.Tracked c s.track s.pipeline :=
  h.serving.tracked _ (List.mem_singleton_self _)

theorem Reached.bounded (h : Reached c s) : s.pipeline.Bounded c := by
  induction h with
  | refl => exact .initial c
  | step h within made kept ih =>
    obtain ⟨x, hx, rfl⟩ := Option.map_eq_some_iff.1 made
    exact (Pipeline.moves_of_step hx).bounded within ih

theorem Reached.size_le (h : Reached c s) : s.unsettled.size ≤ c.settings.workers := by
  have engaged : s.unsettled.size ≤ s.pipeline.engaged.length := by
    refine Unsettled.size_le h.serving.distinct fun r hr => ?_
    obtain ⟨run, mem, e, engaged, record⟩ := h.serving.accountable r hr
    rw [List.mem_singleton.1 mem] at engaged
    exact ⟨e, engaged, record⟩
  have busy := h.bounded.busy
  have count := s.pipeline.length_engaged_le
  omega

/-- While all workers are in handlers, what the run receives is still with the poller or in the raw
buffer, if the poller has not stopped. -/
theorem Leads.intake (h : Leads c isStuck s s') (stuck : s.isStuck = true)
    (hs : Reached c s) : Reached c s' ∧ s'.isStuck = true ∧
      (s'.track.received.length + s.pipeline.raw.length + s.pipeline.poller.held.length =
          s.track.received.length + s'.pipeline.raw.length + s'.pipeline.poller.held.length ∨
        s'.pipeline.poller = .stopped ∧
          s'.track.received.length ≤
            s.track.received.length + c.settings.rawCapacity + c.settings.batch) := by
  induction h with
  | refl => exact ⟨hs, stuck, .inl rfl⟩
  | @step s' s'' a h within made kept ih =>
    obtain ⟨reached, stuck', so_far⟩ := ih
    have reached' : Reached c s'' := Leads.step reached within made rfl
    obtain ⟨x, hx, rfl⟩ := Option.map_eq_some_iff.1 made
    refine ⟨reached', kept, ?_⟩
    have busy : ∀ r ∈ s'.pipeline.workers, r ≠ .idle := by
      rintro r mem rfl
      have handling := List.all_eq_true.1 stuck' _ mem
      cases handling
    have received : (s'.track.follow a x).received.length =
        s'.track.received.length + a.batch.length := by
      rw [Track.received_follow, List.length_append]
    have limits := reached.bounded
    obtain ⟨-, -, rawLimit, heldLimit⟩ := limits
    show (s'.track.follow a x).received.length + _ + _ = _ ∨
      x.pipeline.poller = .stopped ∧ (s'.track.follow a x).received.length ≤ _
    rw [received]
    rcases (Pipeline.moves_of_step hx).intake busy with ⟨stays, keeps⟩ | ⟨stops, quiet⟩
    · rcases so_far with balance | ⟨stopped, bound⟩
      · left
        show _ = s.track.received.length + x.pipeline.raw.length + x.pipeline.poller.held.length
        omega
      · obtain ⟨stops, quiet⟩ := keeps stopped
        rw [quiet, List.length_nil]
        exact .inr ⟨stops, bound⟩
    · rw [quiet, List.length_nil]
      refine .inr ⟨stops, ?_⟩
      rcases so_far with balance | ⟨-, bound⟩
      · omega
      · exact bound

/-- The limits of a consumer with one run, whatever its settings and its handlers are, and in
whichever order poller and workers make their steps. The envelopes in the decoded buffer and the
busy workers are together no more than the workers, and so are the records of the table. The
messages that were received are those with which the run is done and those that are pending, of
which there are no more than the workers, the raw buffer and one batch can hold. When the poller
calls the backend again, everything that it has received has entered the raw buffer. And from the
moment at which all workers are in handlers, no more messages are received than the raw buffer and
one batch can hold, as long as none of these handlers ends. -/
theorem Reached.backpressure (h : Reached c s) :
    s.pipeline.decoded.length + s.pipeline.workers.countP Worker.isBusy ≤ c.settings.workers ∧
    s.unsettled.size ≤ c.settings.workers ∧
    (s.track.Matches c s.pipeline ∧ s.track.received = s.track.events.flatMap Event.batch ∧
      s.track.received.length = s.track.pending.length + s.track.ended.length ∧
      s.track.pending.length ≤
        c.settings.workers + c.settings.rawCapacity + c.settings.batch) ∧
    (∀ s', s.next c .callReceive = some s' →
      s.track.events.filterMap Event.entering? = s.track.events.flatMap Event.batch) ∧
    (s.isStuck = true → ∀ s', Leads c isStuck s s' → s'.track.received.length ≤
      s.track.received.length + c.settings.rawCapacity + c.settings.batch) := by
  refine ⟨h.bounded.busy, h.size_le, ⟨h.tracked.matches, h.tracked.received_eq,
    h.tracked.length_received, h.tracked.matches.length_pending_le h.bounded⟩, ?_, ?_⟩
  · intro s' made
    obtain ⟨x, hx, rfl⟩ := Option.map_eq_some_iff.1 made
    cases Pipeline.moves_of_step hx with
    | callReceive at_ => exact h.tracked.all_entered at_
    | advance at_ step | release at_ step => cases step
  · intro stuck s' leads
    obtain ⟨reached, -, balance | ⟨-, bound⟩⟩ := leads.intake stuck h
    · have raw := reached.bounded.raw
      have held := reached.bounded.held
      omega
    · exact bound

end Solo

/-! ### A run whose handler is stuck -/

namespace Sample

/-- A host with room for little, whose handler never ends. -/
def sleeper : Consumer where
  settings := { workers := 1, batch := 1, rawCapacity := 1, decodedCapacity := 1 }
  registry := (∅ : Registry).add ⟨"Greeting", fun _ _ => .ok .hang⟩
  queue := host.queue

/-- The steps until the handler of the first greeting is called. -/
def doze : List Action :=
  [.callReceive, .received (.ok [greeting]), .push, .takeRaw 0, .decode 0, .offer 0,
    .takeDecoded 0, .start 0]

/-- Where these steps lead. -/
def dozing : Solo :=
  ((Solo.initial sleeper).replay sleeper (fun _ => true) doze).get rfl

/-- The steps until there is no more room. -/
def heap : List Action :=
  [.callReceive, .received (.ok [greeting]), .push, .callReceive, .received (.ok [greeting])]

/-- Where these steps lead. -/
def heaped : Solo :=
  (dozing.replay sleeper Solo.isStuck heap).get rfl

theorem dozing_reached : Solo.Reached sleeper dozing :=
  Solo.Leads.refl.replay (Option.some_get _).symm

theorem heaped_leads : Solo.Leads sleeper Solo.isStuck dozing heaped :=
  Solo.Leads.refl.replay (Option.some_get _).symm

end Sample

/-- With its worker stuck, the run receives as much as the limits allow. -/
theorem Solo.Reached.backpressure_of_sleeper :
    Solo.Reached Sample.sleeper Sample.dozing ∧ Sample.dozing.isStuck = true ∧
    Solo.Leads Sample.sleeper Solo.isStuck Sample.dozing Sample.heaped ∧
    Sample.dozing.unsettled.size = 1 ∧ Sample.dozing.unsettled.size ≤ 1 ∧
    Sample.dozing.track.received.length = 1 ∧ Sample.heaped.track.received.length = 3 ∧
    Sample.heaped.track.received.length ≤ 1 + 1 + 1 := by
  obtain ⟨-, few, -, -, stuck⟩ := Sample.dozing_reached.backpressure
  exact ⟨Sample.dozing_reached, rfl, Sample.heaped_leads, rfl, few, rfl, rfl,
    stuck rfl _ Sample.heaped_leads⟩

end Courier
