import Courier.Proofs.Pipeline.Dispatch
import Courier.Proofs.Pipeline.Settlement

/-!
# The sequential loop

This is what is observed of a loop that takes the received messages one after the other. It decodes
a message and skips it if it is malformed. Otherwise it dispatches the envelope, deletes the message
if the handler has ended well, and goes on with the next message when the delivery is settled. What
handlers and delete calls are told comes from a list of answers; where that list ends, the loop
waits.

Every function of the loop is given what is observed afterwards, as a function of the answers that
are left by then.

## Main definitions

* `Answer`: what handlers and delete calls are told.
* `Sequential.run`: what is observed of the loop.
* `Sequential.Work`, `Sequential.Deed`: what is observed of one delivery.
* `Sequential.InTurns`: messages are worked on in turns.
* `Sequential.OneByOne`: what this means for handlers and decoding.

## Main results

* `Sequential.inTurns_run`: the loop works in turns.
* `Sequential.InTurns.oneByOne`: so handlers never overlap, and messages are decoded one by one.
-/

namespace Courier

/-- What a handler or a delete call is told. -/
inductive Answer where
  | drawn (id : String)
  | sent (r : Except QueueError MessageId)
  | deleted (r : Except QueueError Unit)

/-- The envelope with which a handler is called. -/
def Event.started? : Event → Option Envelope
  | .started e => some e
  | _ => none

/-- Whether an envelope has been decoded. -/
def Event.isDecoded : Event → Bool
  | .decoded _ => true
  | _ => false

/-- Whether a delivery has been settled. -/
def Event.isSettled : Event → Bool
  | .settled _ => true
  | _ => false

namespace Sequential

/-! ### The loop -/

section

variable (call : Envelope → Except DispatchError Activity) (e : Envelope)
  (next : List Answer → List Event)

/-- A delivery is settled when its delete call is answered. -/
def delete : List Answer → List Event
  | .deleted r :: answers => .deleted e r :: .settled e :: next answers
  | _ => []

/-- A message is deleted when its handler has ended well, and only then. -/
def conclude : Outcome → List Answer → List Event
  | .ok, answers => .deleteCalled e :: delete e next answers
  | .failed reason, answers => .failed e (.handler reason) :: .settled e :: next answers
  | .panicked reason, answers => .failed e (.panicked reason) :: .settled e :: next answers

/-- A handler goes on until it ends. -/
def handle : Activity → List Answer → List Event
  | .finish o, answers => .returned e o :: conclude e next o answers
  | .sleep _ activity, answers => handle activity answers
  | .note entry activity, answers => .noted e entry :: handle activity answers
  | .draw activity, .drawn id :: answers => handle (activity id) answers
  | .send q m activity, .sent r :: answers => .sent e q m r :: handle (activity r) answers
  | _, _ => []

/-- An envelope is dispatched, where `call` says what its dispatch begins with. -/
def dispatch (answers : List Answer) : List Event :=
  match call e with
  | .error error => .failed e error :: .settled e :: next answers
  | .ok activity => .started e :: handle e next activity answers

/-- A message is decoded, and dispatched unless it is malformed. -/
def turn (m : Received) (answers : List Answer) : List Event :=
  match Envelope.ofReceived m with
  | .error error => .malformed m error :: next answers
  | .ok e => .decoded e :: dispatch call e next answers

/-- The loop with the given messages. -/
def run : List Received → List Answer → List Event
  | [] => fun _ => []
  | m :: ms => turn call (run ms) m

end

/-! ### Turns -/

/-- What is observed of a delivery between its decoding and its settlement. If its handler is
called, then this comes first. -/
structure Work (e : Envelope) (events : List Event) : Prop where
  own : ∀ ev ∈ events, ev.envelope? = some e ∧ 2 ≤ ev.phase ∧ ev.phase ≤ 6
  once : ∀ ev ∈ events.tail, 3 ≤ ev.phase

/-- What is observed of a delivery between the call of its handler and its settlement. -/
def Deed (e : Envelope) (ev : Event) : Prop :=
  ev.envelope? = some e ∧ 3 ≤ ev.phase ∧ ev.phase ≤ 6

/-- Messages are worked on in turns, in their order. A turn is over when the message has turned out
to be malformed or the delivery is settled, and no turn begins before. -/
inductive InTurns : List Received → List Event → Prop
  | idle (ms) : InTurns ms []
  | skipped {m ms error events} (refused : Envelope.ofReceived m = .error error)
      (rest : InTurns ms events) : InTurns (m :: ms) (.malformed m error :: events)
  | begun {m ms e work} (accepted : Envelope.ofReceived m = .ok e) (own : Work e work) :
      InTurns (m :: ms) (.decoded e :: work)
  | settled {m ms e work events} (accepted : Envelope.ofReceived m = .ok e) (own : Work e work)
      (rest : InTurns ms events) : InTurns (m :: ms) (.decoded e :: work ++ .settled e :: events)

/-- Messages are worked on one by one. -/
structure OneByOne (ms : List Received) (events : List Event) : Prop where
  turns : InTurns ms events
  /-- No handler is called before the delivery of the one before it is settled. -/
  alone : ∀ before e mid e' after,
    events = before ++ .started e :: (mid ++ .started e' :: after) → .settled e ∈ mid
  /-- Handlers are called in the order of the messages. -/
  inOrder : (events.filterMap Event.started?).Sublist
    (ms.filterMap fun m => (Envelope.ofReceived m).toOption)
  /-- When a message is decoded, all that were decoded before are settled. -/
  apart : ∀ before ev after, events = before ++ ev :: after → ev.phase = 1 →
    before.countP Event.isDecoded = before.countP Event.isSettled

section

variable {e : Envelope} {work events events' : List Event} {ms : List Received}

theorem Work.firstPart (h : Work e work) {first : List Event} (le : first <+: work) :
    Work e first where
  own ev mem := h.own ev (le.subset mem)
  once ev mem := by
    obtain ⟨rest, rfl⟩ := le
    cases first with
    | nil => exact absurd mem List.not_mem_nil
    | cons ev' first => exact h.once ev (List.mem_append_left _ mem)

theorem Work.started {deeds : List Event} (h : ∀ ev ∈ deeds, Deed e ev) :
    Work e (.started e :: deeds) where
  own := by
    intro ev mem
    rcases List.mem_cons.1 mem with rfl | mem
    · simp [Event.envelope?, Event.phase]
    · obtain ⟨own, late, early⟩ := h ev mem
      exact ⟨own, by omega, early⟩
  once ev mem := (h ev mem).2.1

/-- What a handler does after its call and what follows from it, as a function of what is observed
when the delivery is settled. -/
inductive Yields (e : Envelope) : ((List Answer → List Event) → List Event) → Prop
  /-- An answer is missing. -/
  | waits : Yields e fun _ => []
  | settles (answers) : Yields e fun next => .settled e :: next answers
  | deed {ev f} (deed : Deed e ev) (h : Yields e f) : Yields e fun next => ev :: f next

theorem deed_noted (e : Envelope) (entry : Log.Entry) : Deed e (.noted e entry) := by
  simp [Deed, Event.envelope?, Event.phase]

theorem deed_sent (e : Envelope) (q : Identity) (m : Outbound)
    (r : Except QueueError MessageId) : Deed e (.sent e q m r) := by
  simp [Deed, Event.envelope?, Event.phase]

theorem deed_returned (e : Envelope) (o : Outcome) : Deed e (.returned e o) := by
  simp [Deed, Event.envelope?, Event.phase]

theorem deed_failed (e : Envelope) (error : DispatchError) :
    Deed e (.failed e error) := by
  simp [Deed, Event.envelope?, Event.phase]

theorem deed_deleteCalled (e : Envelope) : Deed e (.deleteCalled e) := by
  simp [Deed, Event.envelope?, Event.phase]

theorem deed_deleted (e : Envelope) (r : Except QueueError Unit) :
    Deed e (.deleted e r) := by
  simp [Deed, Event.envelope?, Event.phase]

theorem yields_delete (e : Envelope) (answers : List Answer) :
    Yields e fun next => delete e next answers := by
  rcases answers with _ | ⟨_ | _ | r, answers⟩
  · exact .waits
  · exact .waits
  · exact .waits
  · exact .deed (deed_deleted e r) (.settles answers)

theorem yields_conclude (e : Envelope) (o : Outcome) (answers : List Answer) :
    Yields e fun next => conclude e next o answers := by
  cases o with
  | ok => exact .deed (deed_deleteCalled e) (yields_delete e answers)
  | failed reason | panicked reason => exact .deed (deed_failed e _) (.settles answers)

theorem yields_handle (e : Envelope) (activity : Activity) (answers : List Answer) :
    Yields e fun next => handle e next activity answers := by
  induction activity generalizing answers with
  | finish o => exact .deed (deed_returned e o) (yields_conclude e o answers)
  | hang => exact .waits
  | sleep ms activity ih => exact ih answers
  | note entry activity ih => exact .deed (deed_noted e entry) (ih answers)
  | draw activity ih =>
    rcases answers with _ | ⟨id | _ | _, answers⟩
    · exact .waits
    · exact ih id answers
    · exact .waits
    · exact .waits
  | send q m activity ih =>
    rcases answers with _ | ⟨_ | r | _, answers⟩
    · exact .waits
    · exact .waits
    · exact .deed (deed_sent e q m r) (ih r answers)
    · exact .waits

theorem Yields.exists_deeds {f : (List Answer → List Event) → List Event} (h : Yields e f) :
    ∃ deeds, (∀ ev ∈ deeds, Deed e ev) ∧
      ((∀ next, f next = deeds) ∨ ∃ rest, ∀ next, f next = deeds ++ .settled e :: next rest) := by
  induction h with
  | waits => exact ⟨[], List.forall_mem_nil _, .inl fun _ => rfl⟩
  | settles answers => exact ⟨[], List.forall_mem_nil _, .inr ⟨answers, fun _ => rfl⟩⟩
  | @deed ev f own h ih =>
    obtain ⟨deeds, theirs, waits | ⟨rest, settles⟩⟩ := ih
    · exact ⟨ev :: deeds, List.forall_mem_cons.2 ⟨own, theirs⟩,
        .inl fun next => congrArg (ev :: ·) (waits next)⟩
    · exact ⟨ev :: deeds, List.forall_mem_cons.2 ⟨own, theirs⟩,
        .inr ⟨rest, fun next => congrArg (ev :: ·) (settles next)⟩⟩

/-- The loop works in turns. -/
theorem inTurns_run (call : Envelope → Except DispatchError Activity) (ms : List Received)
    (answers : List Answer) : InTurns ms (run call ms answers) := by
  induction ms generalizing answers with
  | nil => exact .idle []
  | cons m ms ih =>
    rw [run, turn]
    split
    · next error refused => exact .skipped refused (ih answers)
    · next e accepted =>
      rw [dispatch]
      split
      · next error refused =>
        have work : Work e [.failed e error] :=
          ⟨by simp [Event.envelope?, Event.phase], List.forall_mem_nil _⟩
        exact .settled accepted work (ih answers)
      · next activity called =>
        obtain ⟨deeds, own, waits | ⟨rest, settles⟩⟩ :=
          (yields_handle e activity answers).exists_deeds
        · rw [waits]
          exact .begun accepted (.started own)
        · rw [settles]
          exact .settled accepted (.started own) (ih rest)

/-! ### What turns mean -/

private theorem prefix_append_cases {α : Type} {xs ys zs : List α} (h : xs <+: ys ++ zs) :
    xs <+: ys ∨ ∃ rest, xs = ys ++ rest ∧ rest <+: zs := by
  obtain ⟨more, split⟩ := h
  rcases List.append_eq_append_iff.1 split with ⟨mid, rfl, -⟩ | ⟨mid, rfl, rfl⟩
  · exact .inl (List.prefix_append _ _)
  · exact .inr ⟨mid, rfl, List.prefix_append _ _⟩

theorem InTurns.soFar (h : InTurns ms events) (le : events' <+: events) :
    InTurns ms events' := by
  induction h generalizing events' with
  | idle ms =>
    rw [List.prefix_nil.1 le]
    exact .idle ms
  | skipped refused rest ih =>
    rcases List.prefix_cons_iff.1 le with rfl | ⟨behind, rfl, within⟩
    · exact .idle _
    · exact .skipped refused (ih within)
  | begun accepted own =>
    rcases List.prefix_cons_iff.1 le with rfl | ⟨first, rfl, within⟩
    · exact .idle _
    · exact .begun accepted (own.firstPart within)
  | settled accepted own rest ih =>
    rcases List.prefix_cons_iff.1 le with rfl | ⟨behind, rfl, within⟩
    · exact .idle _
    rcases prefix_append_cases within with within | ⟨last, rfl, beyond⟩
    · exact .begun accepted (own.firstPart within)
    rcases List.prefix_cons_iff.1 beyond with rfl | ⟨later, rfl, past⟩
    · rw [List.append_nil]
      exact .begun accepted own
    · exact .settled accepted own (ih past)

/-- Where an element stands in a list that is split at another place: before it, there, or behind
it. -/
private theorem split_cases {α : Type} {xs ys before after : List α} {x y : α}
    (split : xs ++ x :: ys = before ++ y :: after) :
    (∃ rest, xs = before ++ y :: rest ∧ after = rest ++ x :: ys) ∨
      before = xs ∧ x = y ∨ ∃ past, before = xs ++ x :: past ∧ ys = past ++ y :: after := by
  rcases List.append_eq_append_iff.1 split with ⟨mid, rfl, same⟩ | ⟨mid, rfl, same⟩
  · cases mid with
    | nil => exact .inr (.inl ⟨List.append_nil _, (List.cons.inj same).1⟩)
    | cons x' past =>
      obtain ⟨rfl, rfl⟩ := List.cons.inj same
      exact .inr (.inr ⟨past, rfl, rfl⟩)
  · cases mid with
    | nil => exact .inr (.inl ⟨(List.append_nil _).symm, (List.cons.inj same).1.symm⟩)
    | cons y' rest =>
      obtain ⟨rfl, rfl⟩ := List.cons.inj same
      exact .inl ⟨rest, rfl, rfl⟩

namespace Work

theorem phase_bounds (h : Work e work) {ev : Event} (mem : ev ∈ work) :
    2 ≤ ev.phase ∧ ev.phase ≤ 6 :=
  (h.own ev mem).2

theorem countP_eq (h : Work e work) :
    work.countP Event.isDecoded = 0 ∧ work.countP Event.isSettled = 0 := by
  constructor
  · refine List.countP_eq_zero.2 fun ev mem decoded => ?_
    have bounds := h.phase_bounds mem
    cases ev with
    | decoded e' => simp [Event.phase] at bounds
    | _ => cases decoded
  · refine List.countP_eq_zero.2 fun ev mem settled => ?_
    have bounds := h.phase_bounds mem
    cases ev with
    | settled e' => simp [Event.phase] at bounds
    | _ => cases settled

theorem started_first (h : Work e work) {before after : List Event} {e' : Envelope}
    (split : work = before ++ .started e' :: after) : before = [] ∧ e' = e := by
  have own := (h.own (.started e') (split ▸ by simp)).1
  refine ⟨?_, Option.some.inj own⟩
  cases before with
  | nil => rfl
  | cons ev before =>
    have late := h.once (.started e') (by simp [split])
    simp [Event.phase] at late

theorem started_sublist (h : Work e work) : (work.filterMap Event.started?).Sublist [e] := by
  cases work with
  | nil => exact List.nil_sublist _
  | cons ev deeds =>
    have silent : deeds.filterMap Event.started? = [] := by
      refine List.filterMap_eq_nil_iff.2 fun ev mem => ?_
      have late : 3 ≤ ev.phase := h.once ev mem
      cases ev with
      | started e' => simp [Event.phase] at late
      | _ => rfl
    have own := (h.own ev List.mem_cons_self).1
    rw [List.filterMap_cons, silent]
    cases ev with
    | started e' => exact Option.some.inj own ▸ List.Sublist.refl _
    | _ => exact List.nil_sublist _

end Work

namespace InTurns

theorem apart (h : InTurns ms events) {before after : List Event} {ev : Event}
    (split : events = before ++ ev :: after) (reads : ev.phase = 1) :
    before.countP Event.isDecoded = before.countP Event.isSettled := by
  induction h generalizing before with
  | idle ms => simp at split
  | @skipped m ms error events refused rest ih =>
    cases before with
    | nil => rfl
    | cons ev' before =>
      obtain ⟨rfl, behind⟩ := List.cons.inj split
      simpa [Event.isDecoded, Event.isSettled] using ih behind
  | @begun m ms e work accepted own =>
    cases before with
    | nil => rfl
    | cons ev' before =>
      obtain ⟨rfl, rfl⟩ := List.cons.inj split
      have inside : ev ∈ before ++ ev :: after := by simp
      have bounds := own.phase_bounds inside
      omega
  | @settled m ms e work events accepted own rest ih =>
    cases before with
    | nil => rfl
    | cons ev' before =>
      obtain ⟨rfl, behind⟩ := List.cons.inj split
      rcases split_cases behind with ⟨last, rfl, -⟩ | ⟨rfl, rfl⟩ | ⟨past, rfl, later⟩
      · have inside : ev ∈ before ++ ev :: last := by simp
        have bounds := own.phase_bounds inside
        omega
      · simp [Event.phase] at reads
      · obtain ⟨noneDecoded, noneSettled⟩ := own.countP_eq
        have decoded : (Event.decoded e).isDecoded = true ∧ (Event.decoded e).isSettled = false :=
          ⟨rfl, rfl⟩
        have settled : (Event.settled e).isDecoded = false ∧ (Event.settled e).isSettled = true :=
          ⟨rfl, rfl⟩
        simp [decoded, settled, noneDecoded, noneSettled, ih later]

theorem alone (h : InTurns ms events) {before mid after : List Event} {e e' : Envelope}
    (split : events = before ++ .started e :: (mid ++ .started e' :: after)) :
    .settled e ∈ mid := by
  induction h generalizing before with
  | idle ms => simp at split
  | @skipped m ms error events refused rest ih =>
    cases before with
    | nil => simp at split
    | cons ev' before => exact ih (List.cons.inj split).2
  | @begun m ms e₀ work accepted own =>
    cases before with
    | nil => simp at split
    | cons ev' before =>
      have again : work = (before ++ .started e :: mid) ++ .started e' :: after := by
        simpa using (List.cons.inj split).2
      simpa using (own.started_first again).1
  | @settled m ms e₀ work events accepted own rest ih =>
    cases before with
    | nil => simp at split
    | cons ev' before =>
      have behind : work ++ .settled e₀ :: events =
          before ++ .started e :: (mid ++ .started e' :: after) := (List.cons.inj split).2
      rcases split_cases behind with ⟨last, called, tail⟩ | ⟨-, same⟩ | ⟨past, rfl, later⟩
      · obtain ⟨rfl, rfl⟩ := own.started_first called
        rcases split_cases tail.symm with ⟨last', rfl, -⟩ | ⟨-, same⟩ | ⟨past, rfl, -⟩
        · have again : work = (.started e :: mid) ++ .started e' :: last' := by simpa using called
          simpa using (own.started_first again).1
        · cases same
        · simp
      · cases same
      · exact ih later

theorem inOrder (h : InTurns ms events) : (events.filterMap Event.started?).Sublist
    (ms.filterMap fun m => (Envelope.ofReceived m).toOption) := by
  induction h with
  | idle ms => exact List.nil_sublist _
  | skipped refused rest ih =>
    rw [List.filterMap_cons, List.filterMap_cons, refused]
    exact ih
  | begun accepted own =>
    rw [List.filterMap_cons, List.filterMap_cons, accepted]
    exact own.started_sublist.trans (List.singleton_sublist.2 List.mem_cons_self)
  | settled accepted own rest ih =>
    rw [List.cons_append, List.filterMap_cons, List.filterMap_append, List.filterMap_cons,
      List.filterMap_cons, accepted]
    exact own.started_sublist.append ih

/-- Who works in turns works one by one. -/
theorem oneByOne (h : InTurns ms events) : OneByOne ms events where
  turns := h
  alone _ _ _ _ _ split := h.alone split
  inOrder := h.inOrder
  apart _ _ _ split reads := h.apart split reads

end InTurns

end

end Sequential

end Courier
