import Courier.Proofs.Broker.Receiving
import Courier.Proofs.Pipeline.Settlement
import Courier.Proofs.System.Calls

/-!
# Leases

A delivery is a lease: it hides its message for as long as the receive call has asked for. Until the
lease is over, the message stays in its queue under the receipt of the delivery, or it is removed by
that receipt, whatever else happens in the meantime.

Here the entries of a history bear the instants at which they were made. Nobody asks for delete
calls to fail, and no run is asked to end.

## Main definitions

* `System.Undisturbed`: the histories with instants.
* `System.replayCalm`: the history that given steps make.
* `Lease`, `System.leases`: the deliveries that runs have received, with their ends.

## Main results

* `System.Undisturbed.reached`: without the instants these are histories of the system.
* `System.Undisturbed.leased`: a message is leased to the run that has received it.
* `System.Undisturbed.split`: the history before the step that made an entry.
-/

namespace Courier

namespace Run

variable {c : Consumer} {now : Nat} {b : Broker} {u : Unsettled} {r : Run} {m : Move}
  {effect : Effect}

theorem call?_eq_check {q : Identity} {o : ReceiveOptions} (h : r.call? c m = some (.check q o)) :
    q = c.queue ∧ o = c.settings.receiveOptions := by
  cases m with
  | look =>
    cases h
    exact ⟨rfl, rfl⟩
  | send w | delete w =>
    simp only [call?] at h
    split at h <;> cases h
  | _ => cases h

/-- A run does not ask for failures. -/
theorem call?_ne_failNext (op : Operation) (count : Nat) :
    r.call? c m ≠ some (.failNext op count) := by
  intro h
  cases m with
  | send w | delete w =>
    simp only [call?] at h
    split at h <;> cases h
  | _ => cases h

/-- A move that makes a step of the pipeline. A step that needs no answer of the broker makes no
call, and the answer of a delete call is the one that the broker gives. -/
structure Makes.Steps (c : Consumer) (b : Broker) (r : Run) (m : Move) (a : Courier.Action) :
    Prop where
  internal : a.isInternal = true → r.call? c m = none
  deleted : ∀ w answer, a = .deleted w answer → ∃ e, r.pipeline.workers[w]? = some (.deleting e) ∧
    r.call? c m = some (.delete c.queue e.receipt) ∧ answer = (b.delete c.queue e.receipt).1

/-- An event that bears an envelope is observed with a step of the pipeline. -/
theorem Makes.of_envelope (h : Makes c now b u r m effect) {ev : Event} {e : Envelope}
    (mem : ev ∈ effect.events) (bears : ev.envelope? = some e) :
    ∃ a x, Pipeline.Moves c u r.pipeline a x ∧ x.events = effect.events ∧
      Makes.Steps c b r m a := by
  cases h with
  | internal internal step =>
    refine ⟨_, _, Pipeline.moves_of_step step, rfl, fun _ => rfl, ?_⟩
    rintro w answer rfl
    cases internal
  | beginReceive step begun =>
    exact ⟨_, _, Pipeline.moves_of_step step, rfl, by rintro ⟨⟩, by rintro _ _ ⟨⟩⟩
  | @refuse x y error b' step refused answered =>
    have only : y.events = [.receiveFailed error] := by
      have moves := Pipeline.moves_of_step answered
      clear answered
      cases moves with
      | receiveFailed at_ => rfl
      | advance at_ step | release at_ step => cases step
    have mem : ev ∈ y.events := mem
    rw [only] at mem
    rw [List.mem_singleton.1 mem] at bears
    cases bears
  | lookAgain nothing => exact absurd mem List.not_mem_nil
  | find found step | fail failed step =>
    exact ⟨_, _, Pipeline.moves_of_step step, rfl, by rintro ⟨⟩, by rintro _ _ ⟨⟩⟩
  | draw step => exact ⟨_, _, Pipeline.moves_of_step step, rfl, by rintro ⟨⟩, by rintro _ _ ⟨⟩⟩
  | send at_ step => exact ⟨_, _, Pipeline.moves_of_step step, rfl, by rintro ⟨⟩, by rintro _ _ ⟨⟩⟩
  | @delete w e x at_ step =>
    refine ⟨_, _, Pipeline.moves_of_step step, rfl, nofun, ?_⟩
    intro w' answer eq
    cases eq
    exact ⟨e, at_, by simp only [call?, at_], rfl⟩

/-- A run goes on unless it is asked to end. -/
theorem Makes.cancelled_eq (h : Makes c now b u r m effect) (calm : m ≠ .internal .cancel) :
    effect.run.pipeline.cancelled = r.pipeline.cancelled := by
  have one {a : Courier.Action} {x : Transition} {p : Pipeline} (step : p.step c u a = some x)
      (calm : a ≠ .cancel) : x.pipeline.cancelled = p.cancelled :=
    (Pipeline.moves_of_step step).cancelled_eq calm
  cases h with
  | internal internal step => exact one step fun eq => calm (congrArg Move.internal eq)
  | beginReceive step begun => exact one step nofun
  | refuse step refused answered => exact (one answered nofun).trans (one step nofun)
  | lookAgain nothing => rfl
  | find found step | fail failed step => exact one step nofun
  | draw step => exact one step nofun
  | send at_ step => exact one step nofun
  | delete at_ step => exact one step nofun

end Run

theorem Broker.unspent_after {b : Broker} {now : Nat} {call : Call}
    (calm : ∀ count, call ≠ .failNext .delete count) (h : b.faults.delete = 0) :
    (b.after now call).faults.delete = 0 := by
  have spend {b b' : Broker} {op : Operation} {e : QueueError}
      (spent : b.spendFault op = some (e, b')) (h : b.faults.delete = 0) :
      b'.faults.delete = 0 := by
    obtain ⟨n, budget, -, rfl⟩ := spendFault_eq_some spent
    cases op with
    | delete => simp [Faults.get, h] at budget
    | _ => exact h
  cases call with
  | create l => exact h
  | resolve l =>
    simp only [after, resolve]
    split
    · next spent => exact spend spent h
    · split <;> exact h
  | failNext op count =>
    cases op with
    | delete => exact absurd rfl (calm count)
    | _ => exact h
  | draw => exact h
  | send q m =>
    simp only [after, send]
    split
    · next spent => exact spend spent h
    · repeat' split
      all_goals exact h
  | beginReceive o =>
    simp only [after, beginReceive]
    split
    · next spent => exact spend spent h
    · split <;> exact h
  | check q o =>
    simp only [after, check]
    repeat' split
    all_goals exact h
  | delete q receipt =>
    simp only [after, delete]
    split
    · next spent => exact spend spent h
    · repeat' split
      all_goals exact h

/-- A delivery that a run has received, with the instant at which it no longer hides its message. -/
structure Lease where
  s : Nat
  k : Nat
  delivery : Received
  expiry : Nat

namespace System

/-! ### Histories with instants -/

/-- A step with which nobody asks for failures of delete calls and no run is asked to end. -/
def Action.isCalm : Action → Bool
  | .failNext .delete _ | .move _ _ (.internal .cancel) => false
  | _ => true

/-- A history without its instants. -/
def untimed (history : List (Nat × Occurrence)) : List Occurrence :=
  history.map (·.2)

/-- The histories of a system in which all steps are calm, with the instants of their entries. -/
inductive Undisturbed (consumers : List Consumer) : List (Nat × Occurrence) → System → Prop
  | start : Undisturbed consumers [] (initial consumers)
  | step {history sys a sys' events} (h : Undisturbed consumers history sys)
      (hx : sys.step a = some (sys', events)) (calm : a.isCalm = true) :
      Undisturbed consumers (history ++ (sys.occurrences a events).map (sys.now, ·)) sys'

/-- The history and the system after the given steps, if they are possible and calm. -/
def replayCalm (history : List (Nat × Occurrence)) (sys : System) :
    List Action → Option (List (Nat × Occurrence) × System)
  | [] => some (history, sys)
  | a :: as =>
    if a.isCalm then
      (sys.step a).bind fun x =>
        replayCalm (history ++ (sys.occurrences a x.2).map (sys.now, ·)) x.1 as
    else none

/-- The leases that runs get with an entry at an instant. -/
def Occurrence.leases (consumers : List Consumer) (now : Nat) : Occurrence → List Lease
  | .event s k (.received ms) =>
    match consumers[s]? with
    | some c => ms.map fun r => ⟨s, k, r, now + c.settings.receiveOptions.visibilityTimeout⟩
    | none => []
  | _ => []

/-- The leases of a history. -/
def leases (consumers : List Consumer) (history : List (Nat × Occurrence)) : List Lease :=
  history.flatMap fun x => x.2.leases consumers x.1

variable {consumers : List Consumer} {history : List (Nat × Occurrence)} {sys sys' : System}
  {a : Action} {events : List Event} {s k : Nat}

theorem untimed_append (history history' : List (Nat × Occurrence)) :
    untimed (history ++ history') = untimed history ++ untimed history' :=
  List.map_append

theorem untimed_map (now : Nat) (os : List Occurrence) : untimed (os.map (now, ·)) = os := by
  simp [untimed, Function.comp_def]

theorem mem_untimed {o : Occurrence} : o ∈ untimed history ↔ ∃ t, (t, o) ∈ history := by
  simp [untimed]

theorem leases_append (history history' : List (Nat × Occurrence)) :
    leases consumers (history ++ history') =
      leases consumers history ++ leases consumers history' :=
  List.flatMap_append

theorem mem_leases {l : Lease} : l ∈ leases consumers history ↔
    ∃ t c ms, consumers[l.s]? = some c ∧ (t, .event l.s l.k (.received ms)) ∈ history ∧
      l.delivery ∈ ms ∧ l.expiry = t + c.settings.receiveOptions.visibilityTimeout := by
  simp only [leases, List.mem_flatMap]
  constructor
  · rintro ⟨⟨t, o⟩, mem, own⟩
    rcases o with i | ⟨s, k, ev⟩
    · exact absurd own List.not_mem_nil
    · cases ev with
      | received ms =>
        simp only [Occurrence.leases] at own
        split at own
        · next c there =>
          obtain ⟨r, inside, rfl⟩ := List.mem_map.1 own
          exact ⟨t, c, ms, there, mem, inside, rfl⟩
        · exact absurd own List.not_mem_nil
      | _ => exact absurd own List.not_mem_nil
  · rintro ⟨t, c, ms, there, mem, inside, expiry⟩
    refine ⟨_, mem, ?_⟩
    simp only [Occurrence.leases, there]
    exact List.mem_map.2 ⟨l.delivery, inside, by rw [← expiry]⟩

theorem exists_lease {c : Consumer} {r : Received} (there : consumers[s]? = some c)
    (received : ((s, k), r) ∈ receivedIn (untimed history)) :
    ∃ l ∈ leases consumers history, l.s = s ∧ l.k = k ∧ l.delivery = r := by
  obtain ⟨o, mem, own⟩ := List.mem_flatMap.1 received
  obtain ⟨t, mem⟩ := mem_untimed.1 mem
  rcases o with i | ⟨s', k', ev⟩
  · exact absurd own List.not_mem_nil
  · cases ev with
    | received ms =>
      obtain ⟨r', inside, eq⟩ := List.mem_map.1 own
      cases eq
      exact ⟨⟨s, k, r, _⟩, mem_leases.2 ⟨t, c, ms, there, mem, inside, rfl⟩, rfl, rfl, rfl⟩
    | _ => exact absurd own List.not_mem_nil

/-- The clock does not run backwards. -/
theorem now_step (hx : sys.step a = some (sys', events)) : sys.now ≤ sys'.now := by
  cases a with
  | pass ms =>
    cases hx
    exact Nat.le_add_right ..
  | move s k m =>
    obtain ⟨sub, run, effect, -, -, -, -, rfl⟩ := makes_of_step hx
    exact Nat.le_refl _
  | start s =>
    obtain ⟨sub, -, hx⟩ := Option.bind_eq_some_iff.1 hx
    cases hx
    exact Nat.le_refl _
  | _ =>
    cases hx
    exact Nat.le_refl _

/-- An event of a run is observed with a move of it. -/
theorem move_of_event (hx : sys.step a = some (sys', events)) {ev : Event}
    (mem : .event s k ev ∈ sys.occurrences a events) :
    ∃ m sub run effect, a = .move s k m ∧ sys.subscribers[s]? = some sub ∧
      sub.runs[k]? = some run ∧
      run.Makes sub.consumer sys.now sys.broker sub.unsettled m effect ∧
      events = effect.events ∧ sys'.broker = effect.broker ∧ ev ∈ effect.events := by
  have observed : .event s k ev ∈ a.observed events := by simpa [occurrences] using mem
  cases a with
  | move s' k' m =>
    obtain ⟨sub, run, effect, hs, hk, makes, rfl, rfl⟩ := makes_of_step hx
    obtain ⟨ev', shown, eq⟩ := List.mem_map.1 observed
    cases eq
    exact ⟨m, sub, run, effect, rfl, hs, hk, makes, rfl, rfl, shown⟩
  | _ => exact absurd observed List.not_mem_nil

/-- A run that receives a message has looked for it in the queue of its consumer. -/
theorem check_of_received (hx : sys.step a = some (sys', events)) {ms : List Received}
    {r : Received} (mem : .event s k (.received ms) ∈ sys.occurrences a events) (inside : r ∈ ms) :
    ∃ sub batch, sys.subscribers[s]? = some sub ∧ r ∈ batch ∧
      sys.broker.check sys.now sub.consumer.queue sub.consumer.settings.receiveOptions =
        (.ok batch, sys'.broker) := by
  obtain ⟨m, sub, run, effect, rfl, hs, hk, makes, rfl, eq, received⟩ := move_of_event hx mem
  have brought : r ∈ effect.events.flatMap Event.batch :=
    List.mem_flatMap.2 ⟨_, received, inside⟩
  rw [← makes.batch.2, mem_deliveredAt] at brought
  have after := makes.broker
  cases called : run.call? sub.consumer m with
  | none =>
    rw [called] at brought
    exact absurd brought List.not_mem_nil
  | some call =>
    rw [called] at brought after
    obtain ⟨q, o, batch, b', rfl, -, found, there⟩ := Broker.delivered_mem_incidents brought
    obtain ⟨rfl, rfl⟩ := Run.call?_eq_check called
    refine ⟨sub, batch, hs, there, ?_⟩
    have same : sys'.broker = b' := eq.trans (after.trans (congrArg Prod.snd found))
    exact found.trans (congrArg (Prod.mk _) same.symm)

namespace Undisturbed

theorem replay {as : List Action} {last : List (Nat × Occurrence) × System}
    (h : Undisturbed consumers history sys) (hr : replayCalm history sys as = some last) :
    Undisturbed consumers last.1 last.2 := by
  induction as generalizing history sys with
  | nil =>
    cases hr
    exact h
  | cons a as ih =>
    rw [replayCalm] at hr
    split at hr
    · next calm =>
      obtain ⟨x, hx, hr⟩ := Option.bind_eq_some_iff.1 hr
      exact ih (h.step hx calm) hr
    · cases hr

/-- Without the instants, these are histories of the system. -/
theorem reached (h : Undisturbed consumers history sys) :
    Reached consumers (untimed history) sys := by
  induction h with
  | start => exact .start
  | step h hx calm ih =>
    rw [untimed_append, untimed_map]
    exact ih.step hx

theorem le_now (h : Undisturbed consumers history sys) : ∀ x ∈ history, x.1 ≤ sys.now := by
  induction h with
  | start => exact List.forall_mem_nil _
  | step h hx calm ih =>
    intro x mem
    rcases List.mem_append.1 mem with mem | mem
    · exact Nat.le_trans (ih x mem) (now_step hx)
    · obtain ⟨o, -, rfl⟩ := List.mem_map.1 mem
      exact now_step hx

/-- No delete call is to fail because somebody has asked for it. -/
theorem unspent (h : Undisturbed consumers history sys) : sys.broker.faults.delete = 0 := by
  induction h with
  | start => rfl
  | @step history sys a sys' events h hx calm ih =>
    rw [broker_step hx]
    cases called : sys.call? a with
    | none => exact ih
    | some call =>
      refine Broker.unspent_after (fun count eq => ?_) ih
      subst eq
      cases a with
      | failNext op count' =>
        cases called
        cases calm
      | move s k m =>
        obtain ⟨sub, run, effect, hs, hk, -⟩ := makes_of_step hx
        rw [call?_move hs hk] at called
        exact Run.call?_ne_failNext _ _ called
      | _ => cases called

theorem running (h : Undisturbed consumers history sys) :
    ∀ (s k : Nat) (sub : Subscriber) (run : Run), sys.subscribers[s]? = some sub →
      sub.runs[k]? = some run → run.pipeline.cancelled = false := by
  induction h with
  | start =>
    intro s k sub run hs hk
    obtain ⟨c, -, rfl⟩ : ∃ c, _ ∧ _ = sub := by simpa [initial] using hs
    simp at hk
  | @step history sys a sys' events h hx calm ih =>
    intro s k sub run hs hk
    cases a with
    | move s₀ k₀ m =>
      obtain ⟨sub₀, run₀, effect, hs₀, hk₀, makes, -, rfl⟩ := makes_of_step hx
      rcases subscribers_set hs with ⟨rfl, rfl⟩ | ⟨-, hs⟩
      · have inner : k₀ < sub₀.runs.length := (List.getElem?_eq_some_iff.1 hk₀).1
        simp only [List.getElem?_set, inner, ↓reduceIte] at hk
        split at hk
        · obtain rfl : effect.run = run := Option.some.inj hk
          rw [makes.cancelled_eq fun eq => by subst eq; cases calm]
          exact ih s₀ k₀ sub₀ run₀ hs₀ hk₀
        · exact ih s₀ k sub₀ run hs₀ hk
      · exact ih s k sub run hs hk
    | start s₀ =>
      obtain ⟨sub₀, hs₀, hx⟩ := Option.bind_eq_some_iff.1 hx
      cases hx
      rcases subscribers_set hs with ⟨rfl, rfl⟩ | ⟨-, hs⟩
      · rw [List.getElem?_append] at hk
        split at hk
        · exact ih s₀ k sub₀ run hs₀ hk
        · obtain ⟨-, rfl⟩ : _ ∧ _ = run := by simpa [List.getElem?_singleton] using hk
          rfl
      · exact ih s k sub run hs hk
    | _ =>
      cases hx
      exact ih s k sub run hs hk

/-- A message is leased to the run that has received it: as long as the lease lasts, it is in the
queue under the receipt of that delivery, or it was removed by it. -/
theorem leased (h : Undisturbed consumers history sys) :
    ∀ l ∈ leases consumers history, sys.now < l.expiry → ∃ c, consumers[l.s]? = some c ∧
      ((∃ m ∈ sys.broker.messages c.queue.url, m.id = l.delivery.id ∧
          m.receipt = some l.delivery.receipt ∧ m.visibleAt = l.expiry) ∨
        .removed c.queue.url l.delivery.receipt l.delivery.id ∈ incidentsOf (untimed history)) := by
  induction h with
  | start => exact List.forall_mem_nil _
  | @step history sys a sys' events h hx calm ih =>
    intro l mem valid
    rw [untimed_append, untimed_map, incidentsOf_append, incidentsOf_occurrences]
    rw [leases_append, List.mem_append] at mem
    rcases mem with mem | mem
    · have before : sys.now < l.expiry := Nat.lt_of_le_of_lt (now_step hx) valid
      obtain ⟨c, there, ⟨m, inside, own, bears, until_⟩ | removed⟩ := ih l mem before
      · refine ⟨c, there, ?_⟩
        rw [broker_step hx]
        cases sys.call? a with
        | none => exact .inl ⟨m, inside, own, bears, until_⟩
        | some call =>
          rcases Broker.mem_messages_after inside (until_ ▸ before) call with
            kept | ⟨receipt, current, removed⟩
          · exact .inl ⟨m, kept, own, bears, until_⟩
          · obtain rfl : l.delivery.receipt = receipt := Option.some.inj (bears.symm.trans current)
            exact .inr (List.mem_append_right _ (own ▸ removed))
      · exact ⟨c, there, .inr (List.mem_append_left _ removed)⟩
    · obtain ⟨t, c, ms, there, received, inside, expiry⟩ := mem_leases.1 mem
      obtain ⟨o, made, eq⟩ := List.mem_map.1 received
      cases eq
      obtain ⟨sub, batch, hs, found, looked⟩ := check_of_received hx made inside
      obtain rfl : c = sub.consumer :=
        Option.some.inj (there.symm.trans (h.reached.consumer hs))
      obtain ⟨m, kept, own, bears, until_⟩ := Broker.hidden_of_check looked found
      exact ⟨_, there, .inl ⟨m, kept, own, bears, until_.trans expiry.symm⟩⟩

/-- The history before the step that made an entry, and that step. Everything from that entry on is
not earlier than the step. -/
theorem split {before after : List (Nat × Occurrence)} {t : Nat} {o : Occurrence}
    (h : Undisturbed consumers (before ++ (t, o) :: after) sys) :
    ∃ past sys₀ a sys₁ events first last, Undisturbed consumers past sys₀ ∧
      sys₀.step a = some (sys₁, events) ∧ sys₀.occurrences a events = first ++ o :: last ∧
      before = past ++ first.map (sys₀.now, ·) ∧ t = sys₀.now ∧ sys₀.now ≤ sys.now ∧
      ∀ x ∈ after, sys₀.now ≤ x.1 := by
  generalize eq : before ++ (t, o) :: after = history at h
  induction h generalizing after with
  | start => simp at eq
  | @step history sys₀ a sys₁ events h hx calm ih =>
    have here (mid : List (Nat × Occurrence))
        (made : (sys₀.occurrences a events).map (sys₀.now, ·) = mid ++ (t, o) :: after) :
        ∃ first last, sys₀.occurrences a events = first ++ o :: last ∧
          mid = first.map (sys₀.now, ·) ∧ t = sys₀.now ∧ ∀ x ∈ after, sys₀.now ≤ x.1 := by
      obtain ⟨first, rest, occ, rfl, tail⟩ := List.map_eq_append_iff.1 made
      obtain ⟨o', last, rfl, head, rfl⟩ := List.map_eq_cons_iff.1 tail
      cases head
      refine ⟨first, last, occ, rfl, rfl, fun x mem => ?_⟩
      obtain ⟨_, -, rfl⟩ := List.mem_map.1 mem
      exact Nat.le_refl _
    rcases List.append_eq_append_iff.1 eq with ⟨mid, rfl, made⟩ | ⟨mid, rfl, made⟩
    · cases mid with
      | nil =>
        obtain ⟨first, last, occ, empty, time, later⟩ := here [] made.symm
        refine ⟨before, sys₀, a, sys₁, events, first, last, by simpa using h, hx, occ, ?_, time,
          now_step hx, later⟩
        rw [← empty, List.append_nil]
      | cons x mid =>
        obtain ⟨rfl, rfl⟩ := List.cons.inj made
        obtain ⟨past, s₀, a', s₁, evs, first, last, hr, hs, occ, bef, time, now_le, later⟩ :=
          ih rfl
        refine ⟨past, s₀, a', s₁, evs, first, last, hr, hs, occ, bef, time,
          Nat.le_trans now_le (now_step hx), fun x mem => ?_⟩
        rcases List.mem_append.1 mem with mem | mem
        · exact later x mem
        · obtain ⟨_, -, rfl⟩ := List.mem_map.1 mem
          exact now_le
    · obtain ⟨first, last, occ, rfl, time, later⟩ := here mid made
      exact ⟨history, sys₀, a, sys₁, events, first, last, h, hx, occ, rfl, time, now_step hx, later⟩

end Undisturbed

end System

end Courier
