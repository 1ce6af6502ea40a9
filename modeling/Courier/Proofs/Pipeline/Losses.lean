import Courier.Proofs.Pipeline.Cancellation

/-!
# Workers that are lost

As long as a run is not asked to end, its steps stop neither the poller nor a worker, and a worker
that has stopped stays so. When the payload of a panic panics in its turn as it is released, the
task of the worker ends: the worker takes no other job, and the record of its delivery stays. A run
is short of the workers that it has lost in this way and of no others; a run that has lost none has
all of its workers.

## Main definitions

* `Pipeline.Running`: poller and workers go on.
* `Pipeline.Short`: they go on, but for the workers that are lost.
* `Pipeline.Loses`: what becomes of a worker that is lost.

## Main results

* `Pipeline.Endures.short`: a run is short of the workers that it has lost.
* `Pipeline.Tracked.running`: a run that loses no workers goes on.
* `Pipeline.loses`: how a worker is lost.
-/

namespace Courier.Pipeline

variable {c : Consumer} {u : Unsettled} {p p' : Pipeline} {t t' : Track} {a : Action}
  {x : Transition} {w w' : Nat} {lost : List Nat}

/-! ### Workers that have stopped -/

private theorem stopped_of_setWorker {s s' : Worker} (stopped : p.workers[w]? = some .stopped)
    (at_ : p.workers[w']? = some s) (going : s ≠ .stopped) (raw : List Received)
    (decoded : List Envelope) :
    ({ p with raw, decoded }.setWorker w' s').workers[w]? = some .stopped := by
  have other : w' ≠ w := by
    rintro rfl
    exact going (Option.some.inj (at_.symm.trans stopped))
  rw [setWorker_workers, List.getElem?_set_ne other, stopped]

private theorem stopped_of_set {workers : List Worker} {s' : Worker} (going : s' ≠ .stopped)
    (stopped : (workers.set w' s')[w]? = some .stopped) : workers[w]? = some .stopped := by
  rw [List.getElem?_set] at stopped
  split at stopped
  · split at stopped
    · exact absurd (Option.some.inj stopped) going
    · cases stopped
  · exact stopped

theorem Moves.stopped (h : Moves c u p a x) (stopped : p.workers[w]? = some .stopped) :
    x.pipeline.workers[w]? = some .stopped := by
  cases h with
  | cancel | callReceive | receiveFailed | receiveNothing | receive | resume | push | stopPoller
  | finish => exact stopped
  | takeDecoded at_ | takeRaw at_ | stopWorker at_ | decode at_ | reject at_ | enqueue at_
  | keep at_ => exact stopped_of_setWorker stopped at_ nofun _ _
  | advance at_ step =>
    refine stopped_of_setWorker stopped at_ ?_ _ _
    rintro rfl
    cases step.envelope_eq.1
  | release at_ step =>
    refine stopped_of_setWorker stopped at_ ?_ _ _
    rintro rfl
    cases step.envelope_eq

theorem Continues.stopped (h : Continues c t p t' p') (stopped : p.workers[w]? = some .stopped) :
    p'.workers[w]? = some .stopped := by
  induction h with
  | refl => exact stopped
  | step h hx ih => exact (moves_of_step hx).stopped ih

/-- As long as a run is not asked to end, its steps stop neither the poller nor a worker. -/
theorem Moves.going (h : Moves c u p a x) (running : x.pipeline.cancelled = false) :
    (x.pipeline.poller = .stopped → p.poller = .stopped) ∧
      ∀ w : Nat, x.pipeline.workers[w]? = some .stopped → p.workers[w]? = some .stopped := by
  cases h with
  | cancel => cases running
  | callReceive | receiveFailed | receiveNothing | receive | resume => exact ⟨nofun, fun _ => id⟩
  | @push m rest at_ room => exact ⟨by cases rest <;> nofun, fun _ => id⟩
  | stopPoller _ shutdown | stopWorker _ shutdown =>
    exact absurd (running.symm.trans shutdown) Bool.false_ne_true
  | finish complete => exact ⟨id, fun _ => id⟩
  | takeDecoded | takeRaw | decode | reject | enqueue | keep | release =>
    exact ⟨id, fun _ => stopped_of_set nofun⟩
  | advance at_ step =>
    refine ⟨id, fun _ => stopped_of_set ?_⟩
    rintro rfl
    cases step.envelope_eq.2

/-! ### Runs that lose workers -/

/-- Only a panic makes a run lose a worker. -/
theorem lose_eq_some (h : p.lose u w = some x) : ∃ e reason,
    p.workers[w]? = some (.handling e (.finish (.panicked reason))) ∧
      x = ⟨u, p.setWorker w .stopped, [.returned e (.panicked reason)]⟩ := by
  unfold lose at h
  split at h
  · next e reason at_ =>
    cases h
    exact ⟨e, reason, at_, rfl⟩
  · cases h

/-- A run that has lost the workers `lost` is short of these and of no others: as long as it is not
asked to end, its poller and its other workers go on. -/
structure Short (c : Consumer) (lost : List Nat) (p : Pipeline) : Prop where
  workers : p.workers.length = c.settings.workers
  distinct : lost.Nodup
  stopped : ∀ w ∈ lost, p.workers[w]? = some .stopped
  going : p.cancelled = false →
    p.poller ≠ .stopped ∧ ∀ w : Nat, p.workers[w]? = some .stopped → w ∈ lost

theorem Short.initial (c : Consumer) : Short c [] (.initial c) where
  workers := List.length_replicate
  distinct := List.nodup_nil
  stopped := nofun
  going _ := by
    refine ⟨nofun, fun w at_ => ?_⟩
    cases List.eq_of_mem_replicate (List.mem_of_getElem? at_)

theorem Short.step (h : Short c lost p) (moves : Moves c u p a x) :
    Short c lost x.pipeline where
  workers := moves.length_workers.trans h.workers
  distinct := h.distinct
  stopped w mem := moves.stopped (h.stopped w mem)
  going running := by
    obtain ⟨poller, workers⟩ := moves.going running
    obtain ⟨polls, works⟩ := h.going (moves.running_before running)
    exact ⟨fun stopped => polls (poller stopped), fun w at_ => works w (workers w at_)⟩

theorem Short.lose (h : Short c lost p) (hx : p.lose u w = some x) :
    Short c (w :: lost) x.pipeline := by
  obtain ⟨e, reason, at_, rfl⟩ := lose_eq_some hx
  have bound : w < p.workers.length := (List.getElem?_eq_some_iff.1 at_).1
  -- A worker that was lost before does not handle a delivery.
  have fresh : w ∉ lost := fun mem => by cases at_.symm.trans (h.stopped w mem)
  exact {
    workers := List.length_set.trans h.workers
    distinct := List.nodup_cons.2 ⟨fresh, h.distinct⟩
    stopped := fun w' mem => by
      rcases List.mem_cons.1 mem with rfl | mem
      · exact List.getElem?_set_self bound
      · have other : w ≠ w' := fun same => fresh (same ▸ mem)
        exact (List.getElem?_set_ne other).trans (h.stopped w' mem)
    going := fun running => by
      obtain ⟨polls, works⟩ := h.going running
      refine ⟨polls, fun w' stopped => ?_⟩
      by_cases same : w = w'
      · exact same ▸ List.mem_cons_self
      · exact List.mem_cons_of_mem w (works w' ((List.getElem?_set_ne same).symm.trans stopped)) }

theorem Endures.short (h : Endures c lost p) : Short c lost p := by
  induction h with
  | initial => exact .initial c
  | step h hx ih => exact ih.step (moves_of_step hx)
  | lose h hx ih => exact ih.lose hx

theorem Tracked.endures {t : Track} (h : Tracked c t p) : Endures c [] p := by
  induction h with
  | initial => exact .initial
  | step h hx ih => exact ih.step hx

/-- Poller and workers go on as long as the run is not asked to end. -/
structure Running (c : Consumer) (p : Pipeline) : Prop where
  workers : p.workers.length = c.settings.workers
  going : p.cancelled = false → p.poller ≠ .stopped ∧ ∀ s ∈ p.workers, s ≠ .stopped

/-- As long as a run is not asked to end, its poller and all of its workers go on. -/
theorem Tracked.running (h : Tracked c t p) : Running c p where
  workers := h.endures.short.workers
  going running := by
    obtain ⟨polls, works⟩ := h.endures.short.going running
    refine ⟨polls, ?_⟩
    rintro _ mem rfl
    obtain ⟨w, stopped⟩ := List.mem_iff_getElem?.1 mem
    cases works w stopped

/-- What becomes of a worker that is lost. Nothing else changes, the table included, so that the
delivery keeps its record. The run has a worker less and does not get it back, whatever it does from
then on. -/
structure Loses (c : Consumer) (u : Unsettled) (p : Pipeline) (w : Nat) (x : Transition) :
    Prop where
  table : x.unsettled = u
  others : x.pipeline = p.setWorker w .stopped
  fewer : p.cancelled = false → ¬Running c x.pipeline
  stays : ∀ t t' p', Continues c t x.pipeline t' p' → p'.workers[w]? = some .stopped

theorem loses (h : p.lose u w = some x) : Loses c u p w x := by
  obtain ⟨e, reason, at_, rfl⟩ := lose_eq_some h
  have stopped := getElem?_setWorker at_ .stopped
  refine ⟨rfl, rfl, fun running still => ?_, fun _ _ _ later => later.stopped stopped⟩
  exact (still.going running).2 _ (List.mem_of_getElem? stopped) rfl

end Courier.Pipeline
