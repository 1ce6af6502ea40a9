import Courier.Proofs.Pipeline.Correspondence
import Mathlib.Data.List.Basic

/-!
# The numbers of deliveries

Each delivery of a run is at exactly one place, and its events are just the entries of the log
under its number.

What a step does to deliveries and log is built from few changes: a delivery moves, something is
observed of it, it is given a route, a new one arrives, or something is observed that is not about
a delivery. `Accounted` is closed under these changes and under nothing else, so what holds of all
accounts is shown for each change.

## Main definitions

* `Event.isGeneral`: an event is not about a delivery.
* `lifeOf`: the events of the delivery with a given number.
* `Accounted`: the accounts of received messages, deliveries and log.

## Main results

* `Accounted.numbers_perm`: every number belongs to exactly one delivery.
* `Accounted.life_eq`: the log has the events of every delivery.
* `Pipeline.Tracked.accounted`: the track of a run is an account.
-/

namespace Courier

/-- Whether an event is about the poller or the run, and not about a single delivery. -/
def Event.isGeneral : Event → Bool
  | .received _ | .receiveFailed _ | .dropped _ | .stopped => true
  | _ => false

/-- The events of the delivery with the number `n`. -/
def lifeOf (n : Nat) (log : List (Option Nat × Event)) : List Event :=
  log.filterMap fun entry => if entry.1 = some n then some entry.2 else none

theorem mem_lifeOf {n : Nat} {log : List (Option Nat × Event)} {ev : Event} :
    ev ∈ lifeOf n log ↔ (some n, ev) ∈ log := by
  simp only [lifeOf, List.mem_filterMap]
  constructor
  · rintro ⟨⟨tag, ev'⟩, mem, eq⟩
    split at eq
    · next same =>
      cases eq
      exact same ▸ mem
    · cases eq
  · exact fun mem => ⟨_, mem, if_pos rfl⟩

theorem lifeOf_append (n : Nat) (log log' : List (Option Nat × Event)) :
    lifeOf n (log ++ log') = lifeOf n log ++ lifeOf n log' :=
  List.filterMap_append

theorem lifeOf_self (n : Nat) (events : List Event) :
    lifeOf n (events.map (some n, ·)) = events := by
  simp [lifeOf, List.filterMap_map]

theorem lifeOf_other {n : Nat} {tag : Option Nat} (h : tag ≠ some n) (events : List Event) :
    lifeOf n (events.map (tag, ·)) = [] := by
  simp [lifeOf, h]

/-- The accounts of the received messages, the deliveries and the log of a run. -/
inductive Accounted : List Received → List Delivery → List (Option Nat × Event) → Prop
  | nil : Accounted [] [] []
  | perm {received ds ds' log} (h : Accounted received ds log) (hp : ds.Perm ds') :
      Accounted received ds' log
  | note {received ds log ev} (h : Accounted received ds log) (general : ev.isGeneral = true) :
      Accounted received ds (log ++ [(none, ev)])
  | observe {received log} {d : Delivery} {ds} (h : Accounted received (d :: ds) log)
      (ev : Event) : Accounted received (d.observe [ev] :: ds) (log ++ [(d.about, ev)])
  | via {received log} {d : Delivery} {ds} (h : Accounted received (d :: ds) log)
      (route : Route) : Accounted received (d.via route :: ds) log
  | arrive {received ds log} (h : Accounted received ds log) (m : Received) :
      Accounted (received ++ [m]) (ds ++ [{ number := received.length, message := m }]) log

namespace Accounted

variable {received : List Received} {ds : List Delivery} {log : List (Option Nat × Event)}

/-! ### What holds of all accounts -/

/-- Every number belongs to exactly one delivery. -/
theorem numbers_perm (h : Accounted received ds log) :
    (ds.map (·.number)).Perm (List.range received.length) := by
  induction h with
  | nil => exact .nil
  | perm h hp ih => exact (hp.map _).symm.trans ih
  | note h general ih => exact ih
  | observe h ev ih => exact ih
  | via h route ih => exact ih
  | arrive h m ih =>
    simpa [List.range_succ] using ih.append_right [_]

theorem numbers_nodup (h : Accounted received ds log) : (ds.map (·.number)).Nodup :=
  h.numbers_perm.nodup_iff.2 List.nodup_range

theorem number_lt (h : Accounted received ds log) {d : Delivery} (hd : d ∈ ds) :
    d.number < received.length :=
  List.mem_range.1 (h.numbers_perm.mem_iff.1 (List.mem_map_of_mem hd))

theorem getElem?_number (h : Accounted received ds log) :
    ∀ d ∈ ds, received[d.number]? = some d.message := by
  induction h with
  | nil => exact List.forall_mem_nil _
  | perm h hp ih => exact fun d hd => ih d (hp.mem_iff.2 hd)
  | note h general ih => exact ih
  | @observe received log d ds h ev ih | @via received log d ds h ev ih =>
    intro d' hd'
    rcases List.mem_cons.1 hd' with rfl | hd'
    · exact ih d List.mem_cons_self
    · exact ih d' (List.mem_cons_of_mem _ hd')
  | @arrive received ds log h m ih =>
    intro d hd
    rcases List.mem_append.1 hd with hd | hd
    · rw [List.getElem?_append_left (h.number_lt hd)]
      exact ih d hd
    · rw [List.mem_singleton.1 hd]
      simp

/-- The log refers to deliveries only. -/
theorem lt_of_mem_log (h : Accounted received ds log) {n : Nat} {ev : Event}
    (hn : (some n, ev) ∈ log) : n < received.length := by
  induction h with
  | nil => exact absurd hn List.not_mem_nil
  | perm h hp ih => exact ih hn
  | note h general ih =>
    rcases List.mem_append.1 hn with hn | hn
    · exact ih hn
    · simp at hn
  | observe h ev ih =>
    rcases List.mem_append.1 hn with hn | hn
    · exact ih hn
    · obtain ⟨rfl, -⟩ : n = _ ∧ _ := by simpa [Delivery.about] using hn
      exact h.number_lt List.mem_cons_self
  | via h route ih => exact ih hn
  | arrive h m ih => exact Nat.lt_of_lt_of_le (ih hn) (by simp)

/-- What the log does not ascribe to a delivery is not about one. -/
theorem isGeneral_of_mem_log (h : Accounted received ds log) {ev : Event}
    (mem : (none, ev) ∈ log) : ev.isGeneral = true := by
  induction h with
  | nil => exact absurd mem List.not_mem_nil
  | perm h hp ih => exact ih mem
  | note h general ih =>
    rcases List.mem_append.1 mem with mem | mem
    · exact ih mem
    · obtain rfl : ev = _ := by simpa using mem
      exact general
  | observe h ev ih =>
    rcases List.mem_append.1 mem with mem | mem
    · exact ih mem
    · simp [Delivery.about] at mem
  | via h route ih => exact ih mem
  | arrive h m ih => exact ih mem

/-- The entries of the log under the number of a delivery are its events. -/
theorem life_eq (h : Accounted received ds log) : ∀ d ∈ ds, lifeOf d.number log = d.events := by
  induction h with
  | nil => exact List.forall_mem_nil _
  | perm h hp ih => exact fun d hd => ih d (hp.mem_iff.2 hd)
  | note h general ih =>
    intro d hd
    rw [lifeOf_append, ih d hd]
    exact List.append_nil _
  | @observe received log d ds h ev ih =>
    have distinct : d.number ∉ ds.map (·.number) := (List.nodup_cons.1 h.numbers_nodup).1
    intro d' hd'
    rw [lifeOf_append]
    rcases List.mem_cons.1 hd' with rfl | hd'
    · rw [Delivery.observe, ih d List.mem_cons_self]
      exact congrArg _ (lifeOf_self d.number [ev])
    · have other : d.about ≠ some d'.number := fun same =>
        distinct (Option.some.inj same ▸ List.mem_map_of_mem hd')
      rw [ih d' (List.mem_cons_of_mem _ hd')]
      exact (congrArg _ (lifeOf_other other [ev])).trans (List.append_nil _)
  | @via received log d ds h route ih =>
    intro d' hd'
    rcases List.mem_cons.1 hd' with rfl | hd'
    · exact ih d List.mem_cons_self
    · exact ih d' (List.mem_cons_of_mem _ hd')
  | @arrive received ds log h m ih =>
    intro d hd
    rcases List.mem_append.1 hd with hd | hd
    · exact ih d hd
    · rw [List.mem_singleton.1 hd]
      refine List.filterMap_eq_nil_iff.2 fun entry mem => if_neg fun same => ?_
      obtain ⟨tag, ev⟩ := entry
      obtain rfl : tag = some received.length := same
      exact absurd (h.lt_of_mem_log mem) (Nat.lt_irrefl _)

/-! ### Larger changes -/

theorem notes (h : Accounted received ds log) {events : List Event}
    (general : ∀ ev ∈ events, ev.isGeneral = true) :
    Accounted received ds (log ++ events.map (none, ·)) := by
  induction events generalizing log with
  | nil => simpa using h
  | cons ev events ih =>
    obtain ⟨first, rest⟩ := List.forall_mem_cons.1 general
    simpa using ih (h.note first) rest

theorem observes {d : Delivery} (h : Accounted received (d :: ds) log) (events : List Event) :
    Accounted received (d.observe events :: ds) (log ++ events.map (d.about, ·)) := by
  induction events generalizing log d with
  | nil => simpa using h
  | cons ev events ih =>
    simpa [Delivery.observe, Delivery.about] using ih (h.observe ev)

theorem arrives (h : Accounted received ds log) (ms : List Received) :
    Accounted (received ++ ms) (ds ++ Delivery.ofBatch received.length ms) log := by
  induction ms generalizing received ds with
  | nil => simpa [Delivery.ofBatch] using h
  | cons m ms ih =>
    simpa [Delivery.ofBatch, List.zipIdx_cons] using ih (h.arrive m)

/-- Several deliveries are observed, each once. -/
theorem observeEach {rest : List Delivery} (h : Accounted received (ds ++ rest) log)
    {events : List Event} (len : ds.length = events.length) :
    Accounted received (List.zipWith (fun d ev => d.observe [ev]) ds events ++ rest)
      (log ++ (ds.map Delivery.about).zip events) := by
  induction ds generalizing events log rest with
  | nil => simpa using h
  | cons d ds ih =>
    obtain ⟨ev, events, rfl⟩ := List.exists_cons_of_length_eq_add_one len.symm
    have moved : Accounted received (ds ++ (d.observe [ev] :: rest)) (log ++ [(d.about, ev)]) :=
      (h.observe ev).perm List.perm_middle.symm
    have all := ih moved (Nat.succ.inj len)
    simpa using all.perm List.perm_middle

end Accounted

/-! ### The track of a run is an account -/

namespace Track

variable {c : Consumer} {t : Track} {p : Pipeline}

/-- The track is an account. -/
def IsAccount (t : Track) : Prop :=
  Accounted t.received t.deliveries t.log

private theorem reduceOption_set {α : Type} {xs : List (Option α)} {i : Nat} {o : Option α}
    (h : xs[i]? = some o) : ∃ rest, xs.reduceOption.Perm (o.toList ++ rest) ∧
      ∀ o', (xs.set i o').reduceOption.Perm (o'.toList ++ rest) := by
  have cons (x : Option α) (ys : List (Option α)) :
      (x :: ys).reduceOption = x.toList ++ ys.reduceOption := by
    cases x <;> simp
  induction xs generalizing i with
  | nil => simp at h
  | cons x xs ih =>
    cases i with
    | zero =>
      obtain rfl : x = o := by simpa using h
      exact ⟨xs.reduceOption, by rw [cons], fun o' => by rw [List.set_cons_zero, cons]⟩
    | succ i =>
      obtain ⟨rest, before, after⟩ := ih (by simpa using h)
      refine ⟨x.toList ++ rest, ?_, fun o' => ?_⟩
      · rw [cons]
        exact (before.append_left _).trans (List.perm_append_comm_assoc _ _ _)
      · rw [List.set_cons_succ, cons]
        exact ((after o').append_left _).trans (List.perm_append_comm_assoc _ _ _)

/-- The deliveries are that of a worker, if it has one, and others, which stay when the worker is
given another. -/
private theorem deliveries_setWorker {w : Nat} {o : Option Delivery}
    (hw : t.workers[w]? = some o) : ∃ rest, t.deliveries.Perm (o.toList ++ rest) ∧
      ∀ o', (t.setWorker w o').deliveries.Perm (o'.toList ++ rest) := by
  obtain ⟨rest, before, after⟩ := reduceOption_set hw
  have place {xs own : List Delivery} (h : xs.Perm (own ++ rest)) :
      (t.hand ++ t.raw ++ xs ++ t.decoded ++ t.ended).Perm
        (own ++ (t.hand ++ t.raw ++ rest ++ t.decoded ++ t.ended)) := by
    have moved := (h.append_left (t.hand ++ t.raw)).trans (List.perm_append_comm_assoc _ _ _)
    simpa using (moved.append_right t.decoded).append_right t.ended
  exact ⟨_, place before, fun o' => place (after o')⟩

private theorem deliveries_enqueue (w : Nat) (d : Delivery) :
    (t.enqueue w d).deliveries.Perm (d :: (t.setWorker w none).deliveries) := by
  simp only [deliveries, enqueue, setWorker, ← List.append_assoc]
  exact (List.perm_append_comm.append_right _).trans (by simp)

private theorem deliveries_close (w : Nat) (d : Delivery) :
    (t.close w d).deliveries.Perm (d :: (t.setWorker w none).deliveries) := by
  simp only [deliveries, close, setWorker, ← List.append_assoc]
  exact List.perm_append_singleton _ _

/-- Something is observed that is not about a delivery. -/
private theorem IsAccount.note (h : t.IsAccount) {events : List Event}
    (general : ∀ ev ∈ events, ev.isGeneral = true) : (t.note none events).IsAccount :=
  h.notes general

private theorem IsAccount.receive (h : t.IsAccount) (ms : List Received) (u : Unsettled)
    (p : Pipeline) : (t.follow (.received (.ok ms)) ⟨u, p, [.received ms]⟩).IsAccount := by
  have general : ∀ ev ∈ [Event.received ms], ev.isGeneral = true := by simp [Event.isGeneral]
  have account := (h.arrives ms).notes general
  have moved : (t.raw ++ t.workers.reduceOption ++ t.decoded ++ t.ended ++
      Delivery.ofBatch t.received.length ms).Perm _ := List.perm_append_comm
  refine account.perm ?_
  simpa [deliveries, follow, Track.note] using moved.append_left t.hand

private theorem IsAccount.push (h : t.IsAccount) {d : Delivery} {rest : List Delivery}
    (hand : t.hand = d :: rest) (x : Transition) : (t.follow .push x).IsAccount := by
  have split : t.deliveries =
      d :: (rest ++ t.raw ++ t.workers.reduceOption ++ t.decoded ++ t.ended) := by
    simp [deliveries, hand]
  rw [IsAccount, split] at h
  simp only [follow, hand]
  have moved : (d.observe x.events :: (rest ++ t.raw ++
      (t.workers.reduceOption ++ t.decoded ++ t.ended))).Perm _ := List.perm_middle.symm
  refine (h.observes x.events).perm ?_
  simpa [deliveries, Track.note] using moved

private theorem IsAccount.stopPoller (h : t.IsAccount) (u : Unsettled) (p p' : Pipeline) :
    (t.follow .stopPoller ⟨u, p', p.poller.farewell⟩).IsAccount := by
  have general : ∀ ev ∈ p.poller.farewell, ev.isGeneral = true := by
    unfold Poller.farewell
    split <;> simp [Event.isGeneral]
  have moved : (t.hand ++ (t.raw ++ t.workers.reduceOption ++ t.decoded ++ t.ended)).Perm _ :=
    List.perm_append_comm
  refine (h.notes general).perm ?_
  simpa [deliveries, follow, Track.note] using moved

/-- An idle worker takes the first delivery of a buffer. -/
private theorem IsAccount.take (h : t.IsAccount) (t' : Track) {w : Nat} {d : Delivery}
    (idle : t'.workers[w]? = some none) (taken : t.deliveries.Perm (d :: t'.deliveries))
    (received : t'.received = t.received) (log : t'.log = t.log) :
    (t'.setWorker w (some d)).IsAccount := by
  obtain ⟨rest, before, after⟩ := deliveries_setWorker idle
  have moved := taken.trans ((before.cons d).trans (after (some d)).symm)
  have account := h.perm moved
  rwa [← received, ← log] at account

private theorem IsAccount.takeRaw (h : t.IsAccount) {w : Nat} (idle : t.workers[w]? = some none)
    (u : Unsettled) (p : Pipeline) : (t.follow (.takeRaw w) ⟨u, p, []⟩).IsAccount := by
  cases raw : t.raw with
  | nil =>
    simp only [follow, raw, note_nil]
    exact h
  | cons d rest =>
    simp only [follow, raw, note_nil]
    refine h.take { t with raw := rest } idle ?_ rfl rfl
    simp [deliveries, raw, List.perm_middle]

private theorem IsAccount.takeDecoded (h : t.IsAccount) {w : Nat}
    (idle : t.workers[w]? = some none) (u : Unsettled) (p : Pipeline) :
    (t.follow (.takeDecoded w) ⟨u, p, []⟩).IsAccount := by
  cases decoded : t.decoded with
  | nil =>
    simp only [follow, decoded, note_nil]
    exact h
  | cons d rest =>
    have middle : (t.hand ++ t.raw ++ t.workers.reduceOption ++ d :: (rest ++ t.ended)).Perm _ :=
      List.perm_middle
    simp only [follow, decoded, note_nil]
    refine h.take { t with decoded := rest } idle ?_ rfl rfl
    simpa [deliveries, decoded] using middle

private theorem IsAccount.carry (h : t.IsAccount) {w : Nat} {d : Delivery}
    (hw : t.workers[w]? = some (some d)) (events : List Event) :
    ((t.note d.about events).setWorker w (some (d.observe events))).IsAccount := by
  obtain ⟨rest, before, after⟩ := deliveries_setWorker hw
  exact ((h.perm before).observes events).perm (after (some (d.observe events))).symm

private theorem IsAccount.close (h : t.IsAccount) {w : Nat} {d : Delivery}
    (hw : t.workers[w]? = some (some d)) (events : List Event) :
    ((t.note d.about events).close w (d.observe events)).IsAccount := by
  obtain ⟨rest, before, after⟩ := deliveries_setWorker hw
  have closed : (t.close w (d.observe events)).deliveries.Perm (d.observe events :: rest) :=
    (deliveries_close w _).trans ((after none).cons _)
  exact ((h.perm before).observes events).perm closed.symm

private theorem IsAccount.enqueue (h : t.IsAccount) {w : Nat} {d : Delivery}
    (hw : t.workers[w]? = some (some d)) (route : Route) :
    (t.enqueue w (d.via route)).IsAccount := by
  obtain ⟨rest, before, after⟩ := deliveries_setWorker hw
  have put : (t.enqueue w (d.via route)).deliveries.Perm (d.via route :: rest) :=
    (deliveries_enqueue w _).trans ((after none).cons _)
  exact ((h.perm before).via route).perm put.symm

private theorem IsAccount.keep (h : t.IsAccount) {w : Nat} {d : Delivery}
    (hw : t.workers[w]? = some (some d)) (route : Route) :
    (t.setWorker w (some (d.via route))).IsAccount := by
  obtain ⟨rest, before, after⟩ := deliveries_setWorker hw
  exact ((h.perm before).via route).perm (after (some (d.via route))).symm

private theorem IsAccount.finish (h : t.IsAccount) {raw last : Event} {decoded : List Event}
    (first : raw.isGeneral = true) (final : last.isGeneral = true)
    (len : t.decoded.length = decoded.length) :
    (t.finish (raw :: decoded ++ [last])).IsAccount := by
  have front : t.deliveries.Perm
      (t.decoded ++ (t.hand ++ t.workers.reduceOption ++ (t.ended ++ t.raw))) := by
    have ended : (t.raw ++ (t.workers.reduceOption ++ t.ended)).Perm _ := List.perm_append_comm
    have moved := (ended.append_left t.hand).append_left t.decoded
    have split := List.perm_append_comm_assoc (t.hand ++ t.raw ++ t.workers.reduceOption)
      t.decoded t.ended
    simpa [deliveries] using split.trans (by simpa using moved)
  have each : List.zipWith (fun d ev => d.observe [ev]) t.decoded (decoded ++ [last]) =
      List.zipWith (fun d ev => d.observe [ev]) t.decoded decoded :=
    calc _ = List.zipWith (fun d ev => d.observe [ev]) (t.decoded ++ []) (decoded ++ [last]) := by
            rw [List.append_nil]
      _ = _ := List.zipWith_append len
      _ = _ := List.append_nil _
  have back : (t.hand ++ t.workers.reduceOption ++ (t.ended ++ t.raw) ++
      List.zipWith (fun d ev => d.observe [ev]) t.decoded decoded).Perm _ := List.perm_append_comm
  have deliveries_eq : (t.finish (raw :: decoded ++ [last])).deliveries =
      t.hand ++ t.workers.reduceOption ++ (t.ended ++ t.raw) ++
        List.zipWith (fun d ev => d.observe [ev]) t.decoded decoded := by
    simp [deliveries, Track.finish, each]
  have log : (t.finish (raw :: decoded ++ [last])).log =
      t.log ++ [(none, raw)] ++ (t.decoded.map Delivery.about).zip decoded ++ [(none, last)] := by
    simp [Track.finish, List.zip_append, len]
  have account := (((Accounted.note h first).perm front).observeEach len).note final
  rw [IsAccount, log, deliveries_eq]
  exact account.perm back.symm

theorem IsAccount.follow (h : t.IsAccount) (hm : t.Matches c p) {u : Unsettled} {a : Action}
    {x : Transition} (hx : Pipeline.Moves c u p a x) : (t.follow a x).IsAccount := by
  cases hx with
  | cancel | callReceive at_ | resume at_ => exact h.note (List.forall_mem_nil _)
  | receiveFailed at_ => exact h.note (by simp [Event.isGeneral])
  | receiveNothing at_ | receive at_ => exact h.receive _ u _
  | push at_ room =>
    obtain ⟨d, rest, hand⟩ := hm.hand_of_delivering at_
    exact h.push hand _
  | stopPoller running shutdown => exact h.stopPoller u p _
  | takeDecoded idle first running => exact h.takeDecoded (hm.idle idle) u _
  | takeRaw idle none_ first running => exact h.takeRaw (hm.idle idle) u _
  | stopWorker idle shutdown =>
    rw [follow_stopWorker u (hm.idle idle)]
    exact h
  | decode at_ read =>
    obtain ⟨d, hw, hd⟩ := hm.carried at_ rfl
    rw [follow_decode _ at_ hw]
    exact h.carry hw _
  | reject at_ unread =>
    obtain ⟨d, hw, hd⟩ := hm.carried at_ rfl
    rw [follow_reject u at_ hw]
    exact h.close hw _
  | enqueue at_ room =>
    obtain ⟨d, hw, hd⟩ := hm.carried at_ rfl
    rw [follow_enqueue u at_ hw]
    exact h.enqueue hw _
  | keep at_ full =>
    obtain ⟨d, hw, hd⟩ := hm.carried at_ rfl
    rw [follow_keep u at_ hw]
    exact h.keep hw _
  | advance at_ step =>
    obtain ⟨d, hw, hd⟩ := hm.carried at_ step.busy
    rw [follow_advance u at_ step hw]
    exact h.carry hw _
  | release at_ step =>
    obtain ⟨d, hw, hd⟩ := hm.carried at_ step.busy
    rw [follow_release u at_ step hw]
    exact h.close hw _
  | finish complete =>
    refine h.finish rfl rfl ?_
    rw [List.length_map]
    exact hm.decoded.length_eq

end Track

/-- The track of a run is an account. -/
theorem Pipeline.Tracked.accounted {c : Consumer} {t : Track} {p : Pipeline}
    (h : Tracked c t p) : t.IsAccount := by
  induction h with
  | initial =>
    have empty : (Track.initial c).deliveries = [] := by
      simp [Track.deliveries, Track.initial, List.reduceOption_replicate_none]
    rw [Track.IsAccount, empty]
    exact .nil
  | step h hx ih => exact ih.follow h.matches (moves_of_step hx)

end Courier
