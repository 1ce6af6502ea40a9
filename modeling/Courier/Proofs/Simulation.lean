import Courier.Proofs.Pipeline.Losses
import Courier.Proofs.Pipeline.Sequential
import Courier.Proofs.System.Continuation
import Courier.Simulation
import Mathlib.Algebra.GroupWithZero.Nat

/-!
# Simulations of one run

A simulation of one consumer with one run makes steps of that run only, and what it observes is what
is observed of the run. When the run is asked to end, it comes to its end at this instant. No party
waits any longer, and each of their steps takes from the steps that are left: a worker that is
decoding makes five at most, since it has to decode, to offer, to start the handler, to give it up
and to stop, and the poller and the run itself make one each.

## Main definitions

* `Pipeline.effort`: the steps that a run makes at most after it was asked to end.
* `Simulation.Watches`: a simulation of one run.

## Main results

* `Pipeline.Moves.effort_lt`: a step towards the end takes from the effort.
* `Simulation.Watches.settle`: parties that act lead the run on.
* `Simulation.Watches.stop`: a run that is asked to end comes to its end.
-/

namespace Courier

/-! ### The effort of a run that was asked to end -/

/-- The steps that a worker makes at most in a run that was asked to end. -/
def Worker.effort : Worker → Nat
  | .stopped => 0
  | .idle => 1
  | .handling _ _ | .acknowledging _ | .deleting _ => 2
  | .dispatching _ => 3
  | .offering _ => 4
  | .decoding _ => 5

/-- The steps that the poller makes at most. -/
def Poller.effort : Poller → Nat
  | .stopped => 0
  | _ => 1

/-- Whether a step brings a run that was asked to end nearer to its end. -/
def Action.isClosing : Action → Bool
  | .decode _ | .offer _ | .start _ | .interrupt _ | .stopWorker _ | .stopPoller | .finish => true
  | _ => false

theorem sum_map_set_lt {α : Type} (f : α → Nat) {xs : List α} {i : Nat} {x x' : α}
    (at_ : xs[i]? = some x) (less : f x' < f x) : ((xs.set i x').map f).sum < (xs.map f).sum := by
  induction xs generalizing i with
  | nil => cases at_
  | cons y ys ih =>
    cases i with
    | zero =>
      obtain rfl : y = x := Option.some.inj at_
      simpa using less
    | succ i => simpa using ih at_

theorem Poller.effort_le (s : Poller) : s.effort ≤ 1 := by
  cases s <;> simp [effort]

theorem Worker.effort_le (s : Worker) : s.effort ≤ 5 := by
  cases s <;> simp [effort]

theorem Worker.sum_effort_le (workers : List Worker) :
    (workers.map Worker.effort).sum ≤ 5 * workers.length := by
  induction workers with
  | nil => exact Nat.le_refl 0
  | cons s workers ih =>
    have one := s.effort_le
    simp only [List.map_cons, List.sum_cons, List.length_cons]
    omega

namespace Pipeline

variable {c : Consumer} {u : Unsettled} {p : Pipeline} {a : Action} {x : Transition}

/-- The steps that a run makes at most when it was asked to end. -/
def effort (p : Pipeline) : Nat :=
  (p.workers.map Worker.effort).sum + p.poller.effort + (!p.finished).toNat

theorem effort_setWorker_lt {w : Nat} {s s' : Worker} (at_ : p.workers[w]? = some s)
    (less : s'.effort < s.effort) (raw : List Received) (decoded : List Envelope) :
    ({ p with raw, decoded }.setWorker w s').effort < p.effort := by
  have fewer := sum_map_set_lt Worker.effort at_ less
  exact Nat.add_lt_add_right (Nat.add_lt_add_right fewer _) _

/-- A step towards the end takes from the effort. -/
theorem Moves.effort_lt (h : Moves c u p a x) (closing : a.isClosing = true) :
    x.pipeline.effort < p.effort := by
  cases h with
  | stopPoller running shutdown => simp [effort, Poller.effort]
  | stopWorker idle shutdown => exact effort_setWorker_lt idle (by simp [Worker.effort]) _ _
  | decode at_ read | reject at_ unread | enqueue at_ room | keep at_ full =>
    exact effort_setWorker_lt at_ (by simp [Worker.effort]) _ _
  | advance at_ step =>
    refine effort_setWorker_lt at_ ?_ _ _
    cases step with
    | start registered started => simp [Worker.effort]
    | _ => cases closing
  | release at_ step =>
    refine effort_setWorker_lt at_ ?_ _ _
    cases step <;> simp [Worker.effort]
  | finish complete =>
    have unfinished : p.finished = false := by
      simp only [canFinish, Bool.and_eq_true, Bool.not_eq_true'] at complete
      exact complete.1.1.2
    simp only [effort, unfinished]
    exact Nat.lt_succ_self _
  | _ => cases closing

theorem effort_le (p : Pipeline) : p.effort ≤ 5 * p.workers.length + 2 := by
  have workers := Worker.sum_effort_le p.workers
  have poller := p.poller.effort_le
  have end_ := (!p.finished).toNat_le
  unfold effort
  omega

theorem Passes.acts {u' : Unsettled} {p' : Pipeline} {as : List Action}
    {before events : List Event} (h : Passes c u p events u' p') (acts : Acts c as before p) :
    ∃ as', Acts c as' (before ++ events) p' := by
  induction h with
  | refl => exact ⟨as, by rwa [List.append_nil]⟩
  | step h hx ih =>
    obtain ⟨as', acts⟩ := ih
    exact ⟨_, by simpa using acts.step hx⟩

end Pipeline

/-! ### The steps of a simulation -/

namespace Simulation

/-- The simulation has the consumer `c` with the table `u` and one run, and it has observed what is
observed of that run. -/
structure Watches (c : Consumer) (u : Unsettled) (run : Run) (sim : Simulation) : Prop where
  alone : sim.system.subscribers = [⟨c, u, [run]⟩]
  acts : ∃ as, Pipeline.Acts c as (sim.observed.reverse.map (·.event)) run.pipeline

variable {c : Consumer} {u : Unsettled} {run : Run} {sim sim' : Simulation} {who : Party}

theorem watches_start (b : Broker) (c : Consumer) :
    ((ofConsumer b c).start 0).Watches c ∅ { pipeline := .initial c } where
  alone := rfl
  acts := ⟨[], .initial⟩

/-- In a run that was asked to end, a worker that has not stopped makes a step towards its end. -/
theorem closing_of_worker (c : Consumer) (u : Unsettled) (delay : Nat) {p : Pipeline} {w : Nat}
    {s : Worker} (shutdown : p.cancelled = true) (at_ : p.workers[w]? = some s)
    (going : s ≠ .stopped) : ∃ a x, a.isClosing = true ∧
      workerIntent delay p w s = .act (.internal a) ∧ Pipeline.Moves c u p a x := by
  cases s with
  | stopped => exact absurd rfl going
  | idle => exact ⟨_, _, rfl, if_pos shutdown, .stopWorker at_ shutdown⟩
  | decoding m =>
    cases read : Envelope.ofReceived m with
    | ok e => exact ⟨.decode w, _, rfl, rfl, .decode at_ read⟩
    | error error => exact ⟨.decode w, _, rfl, rfl, .reject at_ read⟩
  | offering e =>
    by_cases room : p.decoded.length < c.settings.decodedCapacity
    · exact ⟨.offer w, _, rfl, rfl, .enqueue at_ room⟩
    · exact ⟨.offer w, _, rfl, rfl, .keep at_ (Nat.le_of_not_lt room)⟩
  | dispatching e =>
    cases registered : c.registry.find? e.typeName with
    | none => exact ⟨.start w, _, rfl, rfl, .release at_ (.unregistered registered)⟩
    | some b =>
      cases started : b.start (.ofEnvelope e p.cancelled) e with
      | ok a => exact ⟨.start w, _, rfl, rfl, .advance at_ (.start registered started)⟩
      | error error =>
        exact ⟨.start w, _, rfl, rfl, .release at_ (.unreadable registered started)⟩
  | handling e a =>
    exact ⟨_, _, rfl, if_pos shutdown, .release at_ (.interruptHandler a shutdown)⟩
  | acknowledging e =>
    exact ⟨_, _, rfl, if_pos shutdown, .release at_ (.interruptAcknowledging shutdown)⟩
  | deleting e =>
    exact ⟨_, _, rfl, if_pos shutdown, .release at_ (.interruptDeleting shutdown)⟩

/-- In a run that was asked to end, the poller stops, or the run ends if that is possible. -/
theorem closing_of_poller (c : Consumer) (u : Unsettled) (now : Nat) {run : Run}
    (shutdown : run.pipeline.cancelled = true)
    (going : run.pipeline.poller ≠ .stopped ∨ run.pipeline.canFinish = true) :
    ∃ a x, a.isClosing = true ∧ pollerIntent c now run = .act (.internal a) ∧
      Pipeline.Moves c u run.pipeline a x := by
  by_cases at_ : run.pipeline.poller = .stopped
  · have complete := going.resolve_left (not_not_intro at_)
    refine ⟨.finish, _, rfl, ?_, .finish complete⟩
    simp only [pollerIntent, at_, complete, if_true]
  · refine ⟨.stopPoller, _, rfl, ?_, .stopPoller at_ shutdown⟩
    unfold pollerIntent
    split
    · next stopped => exact absurd stopped at_
    · exact if_pos shutdown

namespace Watches

/-- A step of the system that belongs to a run is a move of the one run. -/
theorem apply_move (h : sim.Watches c u run) {s k : Nat} {m : Move}
    (hx : sim.apply s (.move s k m) = some sim') : ∃ effect,
      run.Makes c sim.system.now sim.system.broker u m effect ∧
      sim'.Watches c effect.unsettled effect.run := by
  obtain ⟨⟨system, events⟩, step, rfl⟩ := Option.map_eq_some_iff.1 hx
  obtain ⟨sub, run', effect, hs, hk, makes, rfl, rfl⟩ := System.makes_of_step step
  rw [h.alone] at hs
  obtain ⟨rfl, rfl⟩ : s = 0 ∧ sub = ⟨c, u, [run]⟩ := by
    cases s with
    | zero => exact ⟨rfl, (Option.some.inj hs).symm⟩
    | succ s => cases hs
  obtain ⟨rfl, rfl⟩ : k = 0 ∧ run' = run := by
    cases k with
    | zero => exact ⟨rfl, (Option.some.inj hk).symm⟩
    | succ k => cases hk
  refine ⟨effect, makes, ?_, ?_⟩
  · simp [System.setSubscriber, h.alone]
  · obtain ⟨as, acts⟩ := h.acts
    simpa [Function.comp_def] using makes.passes.acts acts

theorem perform (h : sim.Watches c u run) {m : Move} (hx : sim.perform who m = some sim') :
    ∃ effect, run.Makes c sim.system.now sim.system.broker u m effect ∧
      sim'.Watches c effect.unsettled effect.run := by
  obtain ⟨sim₁, step, rfl⟩ := Option.map_eq_some_iff.1 hx
  obtain ⟨effect, makes, watches⟩ := h.apply_move step
  refine ⟨effect, makes, ?_⟩
  split
  · exact ⟨watches.alone, watches.acts⟩
  · exact watches

theorem act? (h : sim.Watches c u run) (hx : sim.act? who = some sim') :
    ∃ u' run', sim'.Watches c u' run' := by
  have awake : (sim.clearAlarm who).Watches c u run := ⟨h.alone, h.acts⟩
  unfold Simulation.act? at hx
  split at hx
  · cases hx
  · obtain ⟨effect, -, watches⟩ := awake.perform hx
    exact ⟨_, _, watches⟩
  · split at hx
    · obtain ⟨effect, -, watches⟩ := h.perform hx
      exact ⟨_, _, watches⟩
    · cases hx
      exact ⟨u, run, h.alone, h.acts⟩
  · split at hx
    · obtain ⟨effect, -, watches⟩ := awake.perform hx
      exact ⟨_, _, watches⟩
    · cases hx

/-- Parties that act lead the run on. -/
theorem settle (h : sim.Watches c u run) (n : Nat) :
    ∃ u' run', (sim.settle n).Watches c u' run' := by
  induction n generalizing sim u run with
  | zero => exact ⟨u, run, h⟩
  | succ n ih =>
    unfold Simulation.settle
    split
    · next acted =>
      obtain ⟨who, -, acts⟩ := List.exists_of_findSome?_eq_some acted
      obtain ⟨u', run', watches⟩ := h.act? acts
      exact ih watches
    · exact ⟨u, run, h⟩

theorem passTo (h : sim.Watches c u run) (time : Nat) : (sim.passTo time).Watches c u run where
  alone := h.alone
  acts := h.acts

theorem advance (h : sim.Watches c u run) (n time : Nat) :
    ∃ u' run', (sim.advance n time).Watches c u' run' := by
  induction n generalizing sim u run with
  | zero => exact ⟨u, run, h⟩
  | succ n ih =>
    obtain ⟨u', run', settled⟩ := h.settle patience
    simp only [Simulation.advance]
    split
    · split
      · exact ih (settled.passTo _)
      · exact ⟨u', run', settled.passTo time⟩
    · exact ⟨u', run', settled.passTo time⟩

/-! ### The end of a run -/

theorem intent_poller (h : sim.Watches c u run) :
    sim.intent ⟨0, 0, none⟩ = pollerIntent c sim.system.now run := by
  simp [intent, h.alone]

theorem intent_worker (h : sim.Watches c u run) {w : Nat} {s : Worker}
    (at_ : run.pipeline.workers[w]? = some s) :
    sim.intent ⟨0, 0, some w⟩ = workerIntent sim.deleteDelay run.pipeline w s := by
  simp [intent, h.alone, at_]

/-- Whoever has something to do in a run that was asked to end belongs to the one run, and makes a
step towards its end. -/
theorem closing (h : sim.Watches c u run) (shutdown : run.pipeline.cancelled = true)
    (busy : sim.intent who ≠ .rest) : who.subscriber = 0 ∧ who.run = 0 ∧ ∃ a x,
      a.isClosing = true ∧ sim.intent who = .act (.internal a) ∧
        Pipeline.Moves c u run.pipeline a x := by
  obtain ⟨subscriber, k, worker⟩ := who
  obtain rfl : subscriber = 0 := by
    cases subscriber with
    | zero => rfl
    | succ s => simp [intent, h.alone] at busy
  obtain rfl : k = 0 := by
    cases k with
    | zero => rfl
    | succ k => simp [intent, h.alone] at busy
  refine ⟨rfl, rfl, ?_⟩
  cases worker with
  | none =>
    rw [h.intent_poller] at busy ⊢
    refine closing_of_poller c u _ shutdown ?_
    by_contra done
    obtain ⟨at_, incomplete⟩ := not_or.1 done
    exact busy (by simp [pollerIntent, Decidable.not_not.1 at_, incomplete])
  | some w =>
    cases at_ : run.pipeline.workers[w]? with
    | none => simp [intent, h.alone, at_] at busy
    | some s =>
      rw [h.intent_worker at_] at busy ⊢
      exact closing_of_worker c u _ shutdown at_ (by rintro rfl; exact busy rfl)

/-- A step that is possible for the run and needs no answer of the broker can be made. -/
theorem exists_perform (h : sim.Watches c u run) (first : who.subscriber = 0)
    (first' : who.run = 0) {a : Action} {x : Transition} (internal : a.isInternal = true)
    (step : run.pipeline.step c u a = some x) :
    ∃ sim', sim.perform who (.internal a) = some sim' := by
  simp [Simulation.perform, apply, System.step, first, first', h.alone, Run.step, internal,
    Run.lift, step]

/-- Whoever has something to do in a run that was asked to end acts at once, and that takes from the
effort of the run. -/
theorem act?_of_busy (h : sim.Watches c u run) (shutdown : run.pipeline.cancelled = true)
    (busy : sim.intent who ≠ .rest) : ∃ sim' u' run', sim.act? who = some sim' ∧
      sim'.Watches c u' run' ∧ run'.pipeline.cancelled = true ∧
      run'.pipeline.effort < run.pipeline.effort := by
  obtain ⟨first, first', a, x, closing, next, moves⟩ := h.closing shutdown busy
  have awake : (sim.clearAlarm who).Watches c u run := ⟨h.alone, h.acts⟩
  have acts : sim.act? who = (sim.clearAlarm who).perform who (.internal a) := by
    simp only [Simulation.act?, next]
  have internal : a.isInternal = true := by
    cases a <;> first | rfl | cases closing
  obtain ⟨sim', performed⟩ :=
    awake.exists_perform first first' internal (Pipeline.step_iff.2 moves)
  obtain ⟨effect, makes, watches⟩ := awake.perform performed
  cases makes with
  | internal _ step =>
    have moves := Pipeline.moves_of_step step
    exact ⟨sim', _, _, acts.trans performed, watches, moves.cancelled shutdown,
      moves.effort_lt closing⟩

/-- The parties of a run that has not ended are its poller and its workers. -/
theorem mem_parties (h : sim.Watches c u run) (unfinished : run.pipeline.finished = false) :
    ⟨0, 0, none⟩ ∈ parties sim.system ∧
      ∀ w < run.pipeline.workers.length, ⟨0, 0, some w⟩ ∈ parties sim.system := by
  simp [parties, h.alone, unfinished]

/-- Until a run that was asked to end has ended, some party has something to do. -/
theorem exists_busy (h : sim.Watches c u run) (shutdown : run.pipeline.cancelled = true)
    (unfinished : run.pipeline.finished = false) :
    ∃ who ∈ parties sim.system, sim.intent who ≠ .rest := by
  obtain ⟨poller, workers⟩ := h.mem_parties unfinished
  by_cases stopped : ∀ s ∈ run.pipeline.workers, s = .stopped
  · refine ⟨_, poller, ?_⟩
    have going : run.pipeline.poller ≠ .stopped ∨ run.pipeline.canFinish = true := by
      refine Decidable.or_iff_not_imp_left.2 fun at_ => ?_
      simp only [Pipeline.canFinish, shutdown, unfinished, Decidable.not_not.1 at_]
      simpa using fun s mem => stopped s mem ▸ rfl
    obtain ⟨a, x, -, next, -⟩ := closing_of_poller c u sim.system.now shutdown going
    rw [h.intent_poller, next]
    rintro ⟨⟩
  · push Not at stopped
    obtain ⟨s, mem, going⟩ := stopped
    obtain ⟨w, bound, rfl⟩ := List.mem_iff_getElem.1 mem
    have at_ := List.getElem?_eq_getElem bound
    obtain ⟨a, x, -, next, -⟩ := closing_of_worker c u sim.deleteDelay shutdown at_ going
    refine ⟨_, workers w bound, ?_⟩
    rw [h.intent_worker at_, next]
    rintro ⟨⟩

theorem settle_of_cancelled (h : sim.Watches c u run) (shutdown : run.pipeline.cancelled = true)
    {n : Nat} (enough : run.pipeline.effort ≤ n) : ∃ u' run',
      (sim.settle n).Watches c u' run' ∧ run'.pipeline.finished = true := by
  induction n generalizing sim u run with
  | zero =>
    have finished : run.pipeline.finished = true := by
      simpa using Nat.eq_zero_of_add_eq_zero_left (Nat.le_zero.1 enough)
    exact ⟨u, run, h, finished⟩
  | succ n ih =>
    unfold Simulation.settle
    split
    · next acted =>
      obtain ⟨who, -, acts⟩ := List.exists_of_findSome?_eq_some acted
      have busy : sim.intent who ≠ .rest := by
        intro rests
        simp [Simulation.act?, rests] at acts
      obtain ⟨sim', u', run', acts', watches, shutdown', less⟩ := h.act?_of_busy shutdown busy
      obtain rfl := Option.some.inj (acts.symm.trans acts')
      exact ih watches shutdown' (by omega)
    · next none_ =>
      refine ⟨u, run, h, ?_⟩
      by_contra going
      obtain ⟨who, mem, busy⟩ := h.exists_busy shutdown (Bool.eq_false_iff.2 going)
      obtain ⟨sim', u', run', acts, -⟩ := h.act?_of_busy shutdown busy
      rw [List.findSome?_eq_none_iff.1 none_ who mem] at acts
      cases acts

/-- A run that is asked to end comes to its end, since each of its workers makes five steps at
most, and two more are made. -/
theorem stop (h : sim.Watches c u run) (few : 5 * c.settings.workers + 2 ≤ patience) :
    ∃ u' run', (sim.stop 0 0).Watches c u' run' ∧ run'.pipeline.finished = true := by
  obtain ⟨sim', asked⟩ : ∃ sim', sim.apply 0 (.move 0 0 (.internal .cancel)) = some sim' := by
    simp [apply, System.step, h.alone, Run.step, Action.isInternal, Run.lift,
      Pipeline.step_iff.2 .cancel]
  obtain ⟨effect, makes, watches⟩ := h.apply_move asked
  have settled : sim.stop 0 0 = sim'.settle patience := by
    rw [Simulation.stop, asked, Option.getD_some]
  obtain ⟨as, acts⟩ := watches.acts
  obtain ⟨t, tracked, -⟩ := (Pipeline.observed_iff_acts.2 ⟨as, acts⟩).tracked
  have enough := effect.run.pipeline.effort_le
  rw [tracked.running.workers] at enough
  rw [settled]
  refine watches.settle_of_cancelled ?_ (Nat.le_trans enough few)
  cases makes with
  | internal _ step =>
    cases step
    rfl

/-- What a consumer does until it is cancelled is a run that has come to its end. -/
theorem acts_of_stop (h : sim.Watches c u run) (few : 5 * c.settings.workers + 2 ≤ patience) :
    ∃ as p, Pipeline.Acts c as ((sim.stop 0 0).observed.reverse.map (·.event)) p ∧
      p.finished = true := by
  obtain ⟨u', run', watches, finished⟩ := h.stop few
  obtain ⟨as, acts⟩ := watches.acts
  exact ⟨as, run'.pipeline, acts, finished⟩

end Watches

end Simulation

end Courier
