import Courier.Lifecycle.Events
import Courier.Proofs.Pipeline.Dispatch
import Mathlib.Data.List.Induction
import Mathlib.Data.List.Sort

/-!
# The last registration wins

A registry is filled by registrations, one after the other, each of a handler of some message type
under the name of that type. Different types may have the same name. What counts is the last
registration of a name: an envelope with that name is read as a message of the type of this
registration, and its handler is called. What was registered before under the name has gone, with
its way of reading payloads, and so its type and its handler do not matter at all.

A registry is determined by what is found in it. So it does not matter either in which order
registrations of different names came.

## Main definitions

* `Registration`: a handler with its message type, and the way in which it is registered.
* `Registry.ofRegistrations`: the registry that registrations fill.
* `Registration.last?`: the last registration of a name.
* `Registration.Serves`: a registration is the one by which an envelope is dispatched.

## Main results

* `Dictionary.eq_of_find?`: dictionaries in which the same is found are equal.
* `Registry.find?_ofRegistrations`: what is found is the binding of the last registration.
* `Registry.last_registration_wins`: which registration serves an envelope, and what a registry
  depends on.
-/

namespace Courier

/-! ### Dictionaries in which the same is found -/

namespace Dictionary

variable {α : Type} {d d' : Dictionary α} {name : String} {value : α}

theorem pairwise_names (d : Dictionary α) : d.names.Pairwise (· < ·) :=
  List.pairwise_map.2 d.ascending

theorem nodup_names (d : Dictionary α) : d.names.Nodup :=
  d.pairwise_names.imp String.ne_of_lt

theorem mem_entries : (name, value) ∈ d.entries ↔ d.find? name = some value := by
  constructor
  · intro mem
    have some_ : (d.entries.find? fun e => e.1 == name).isSome := by
      rw [List.find?_isSome]
      exact ⟨_, mem, beq_self_eq_true name⟩
    obtain ⟨e, first⟩ := Option.isSome_iff_exists.1 some_
    have own : e.1 = name := by simpa using List.find?_some first
    have same : e = (name, value) :=
      List.inj_on_of_nodup_map d.nodup_names (List.mem_of_find?_eq_some first) mem own
    rw [find?, first, same]
    rfl
  · intro found
    obtain ⟨e, first, rfl⟩ := Option.map_eq_some_iff.1 found
    have own : e.1 = name := by simpa using List.find?_some first
    exact own ▸ List.mem_of_find?_eq_some first

theorem mem_names : name ∈ d.names ↔ (d.find? name).isSome := by
  rw [names, List.mem_map, Option.isSome_iff_exists]
  constructor
  · rintro ⟨⟨_, value⟩, mem, rfl⟩
    exact ⟨value, mem_entries.1 mem⟩
  · rintro ⟨value, found⟩
    exact ⟨_, mem_entries.2 found, rfl⟩

/-- Dictionaries in which the same is found are equal. -/
theorem eq_of_find? (same : ∀ name, d.find? name = d'.find? name) : d = d' := by
  have irrefl : Std.Irrefl fun a b : String × α => a.1 < b.1 := ⟨fun a => String.lt_irrefl a.1⟩
  have antisymm : Std.Antisymm fun a b : String × α => a.1 < b.1 :=
    ⟨fun a b before behind => absurd (String.lt_trans before behind) (String.lt_irrefl a.1)⟩
  have entries : d.entries = d'.entries :=
    d.ascending.eq_of_mem_iff d'.ascending fun (name, value) => by
      rw [mem_entries, mem_entries, same]
  cases d
  cases d'
  cases entries
  rfl

end Dictionary

/-! ### Registrations -/

/-- A handler of messages of some type that is registered, as such or as a function. -/
structure Registration where
  Subject : Type
  [message : Message Subject]
  handler : Handler Subject
  /-- Whether the handler is registered as a function. -/
  isFunction : Bool

attribute [instance] Registration.message

namespace Registration

/-- The name under which a handler is registered. -/
def typeName (x : Registration) : String :=
  Message.typeName x.Subject

/-- The binding that a registration leaves. -/
def binding (x : Registration) : Binding :=
  .ofHandler x.handler

/-- The last registration of a name. -/
def last? (xs : List Registration) (name : String) : Option Registration :=
  (xs.filter (·.typeName = name)).getLast?

variable {xs : List Registration} {x : Registration} {name : String}

theorem last?_concat (xs : List Registration) (x : Registration) (name : String) :
    last? (xs ++ [x]) name = if x.typeName = name then some x else last? xs name := by
  by_cases own : x.typeName = name <;> simp [last?, own]

/-- What comes before a registration and after it does not matter, if no other of its name comes
after it. -/
theorem last?_append_cons (before : List Registration) {after : List Registration}
    (own : x.typeName = name) (last : ∀ y ∈ after, y.typeName ≠ name) :
    last? (before ++ x :: after) name = some x := by
  have behind : after.filter (·.typeName = name) = [] := by simpa using last
  simp [last?, own, behind]

theorem last?_eq_none : last? xs name = none ↔ ∀ x ∈ xs, x.typeName ≠ name := by
  simp [last?]

end Registration

namespace Registry

/-- Registers a handler in the way of a registration. -/
def enter (r : Registry) (x : Registration) : Registry :=
  if x.isFunction then r.registerFn x.handler else r.register x.handler

/-- The registry that registrations fill, one after the other. -/
def ofRegistrations (xs : List Registration) : Registry :=
  xs.foldl enter ∅

/-- It makes no difference in which way a handler is registered. -/
theorem enter_eq_add (r : Registry) (x : Registration) : r.enter x = r.add x.binding := by
  unfold enter
  split <;> rfl

variable {xs : List Registration} {x : Registration} {name : String}

/-- What is found is the binding of the last registration. -/
theorem find?_ofRegistrations (xs : List Registration) (name : String) :
    (ofRegistrations xs).find? name = (Registration.last? xs name).map (·.binding) := by
  induction xs using List.reverseRecOn with
  | nil => rfl
  | append_singleton xs x ih =>
    have step : ofRegistrations (xs ++ [x]) = (ofRegistrations xs).add x.binding := by
      rw [ofRegistrations, List.foldl_concat, enter_eq_add]
      rfl
    have found : ((ofRegistrations xs).add x.binding).find? name =
        if x.typeName = name then some x.binding else (ofRegistrations xs).find? name :=
      Dictionary.find?_insert ..
    rw [step, found, ih, Registration.last?_concat]
    split <;> rfl

theorem ofRegistrations_congr {ys : List Registration}
    (same : ∀ name, Registration.last? xs name = Registration.last? ys name) :
    ofRegistrations xs = ofRegistrations ys := by
  have bindings : (ofRegistrations xs).bindings = (ofRegistrations ys).bindings := by
    refine Dictionary.eq_of_find? fun name => ?_
    have found := find?_ofRegistrations xs name
    rw [same, ← find?_ofRegistrations ys name] at found
    exact found
  exact congrArg mk bindings

theorem mem_typeNames_ofRegistrations :
    name ∈ (ofRegistrations xs).typeNames ↔ ∃ x ∈ xs, x.typeName = name := by
  have found : (ofRegistrations xs).bindings.find? name =
      (Registration.last? xs name).map (·.binding) := find?_ofRegistrations xs name
  rw [typeNames, Dictionary.mem_names, found, Option.isSome_map, Option.isSome_iff_ne_none, Ne,
    Registration.last?_eq_none]
  simp

end Registry

/-! ### Dispatches -/

theorem Binding.start_ofHandler {M : Type} [Message M] (h : Handler M) (ctx : Context)
    (e : Envelope) : (Binding.ofHandler h).start ctx e =
      ((readFrame M e.payload).mapError (.invalidPayload e.typeName)).map (h ctx) :=
  rfl

/-- A registration is the one by which a registry dispatches an envelope. Its handler is called with
the message of its type that is in the payload and with the data of the envelope, and is called
once, as long as it goes on. If there is no such message, the dispatch has failed and no handler has
been called. -/
structure Registration.Serves (x : Registration) (r : Registry) (e : Envelope) : Prop where
  found : r.find? e.typeName = some x.binding
  started : ∀ cancelled m, readFrame x.Subject e.payload = .ok m →
    x.binding.start (.ofEnvelope e cancelled) e =
      .ok (x.handler ⟨e.id, e.typeName, e.headers, e.receiveCount, cancelled⟩ m)
  unreadable : ∀ cancelled f, readFrame x.Subject e.payload = .error f →
    x.binding.start (.ofEnvelope e cancelled) e = .error (.invalidPayload e.typeName f)
  called : ∀ (c : Consumer) (u : Unsettled) (p : Pipeline) (w : Nat) m, c.registry = r →
    p.workers[w]? = some (.dispatching e) → readFrame x.Subject e.payload = .ok m →
    p.step c u (.start w) = some ⟨u, p.setWorker w (.handling e
      (x.handler ⟨e.id, e.typeName, e.headers, e.receiveCount, p.cancelled⟩ m)), [.started e]⟩ ∧
    ∀ a, (p.setWorker w (.handling e a)).step c u (.start w) = none
  failed : ∀ (c : Consumer) (u : Unsettled) (p : Pipeline) (w : Nat) f, c.registry = r →
    p.workers[w]? = some (.dispatching e) → readFrame x.Subject e.payload = .error f →
    p.step c u (.start w) =
      some (p.release u w e [.failed e (.decode (.invalidPayload e.typeName f))])

theorem Registration.serves_of_found {x : Registration} {r : Registry} {e : Envelope}
    (found : r.find? e.typeName = some x.binding) : x.Serves r e := by
  have started (cancelled : Bool) (m : x.Subject) (read : readFrame x.Subject e.payload = .ok m) :
      x.binding.start (.ofEnvelope e cancelled) e =
        .ok (x.handler (.ofEnvelope e cancelled) m) := by
    rw [binding, Binding.start_ofHandler, read]
    rfl
  have unreadable (cancelled : Bool) (f : Json.Fault)
      (broken : readFrame x.Subject e.payload = .error f) :
      x.binding.start (.ofEnvelope e cancelled) e = .error (.invalidPayload e.typeName f) := by
    rw [binding, Binding.start_ofHandler, broken]
    rfl
  refine ⟨found, started, unreadable, fun c u p w m same at_ read => ⟨?_, fun a => ?_⟩,
    fun c u p w f same at_ broken => ?_⟩
  · exact Pipeline.step_start_called at_ (Consumer.dispatch_eq_ok.2
      ⟨_, same ▸ found, started p.cancelled m read⟩)
  · have there := Pipeline.getElem?_setWorker at_ (.handling e a)
    simp only [Pipeline.step, Action.worker?, there, Option.bind_some, Pipeline.stepWorker]
  · exact Pipeline.step_start_refused at_ (Consumer.dispatch_eq_error.2
      (.inr ⟨_, _, same ▸ found, unreadable p.cancelled f broken, rfl⟩))

/-- **The last registration of a name wins.** Under a name that is not registered nothing is found.
Otherwise the last registration of the name serves all envelopes with this name: it is found, the
payload is read as a message of its type, and its handler is called once with the message and the
data of the envelope, or the dispatch fails because there is no such message. Whatever was
registered before could be left out or be something else.

The order of registrations matters only among those of one name. The names in a registry are listed
in ascending order, each of them once, and are those that have been registered. -/
theorem Registry.last_registration_wins (xs : List Registration) :
    (∀ name, (∀ x ∈ xs, x.typeName ≠ name) → (ofRegistrations xs).find? name = none) ∧
    (∀ before x after, xs = before ++ x :: after → ∀ e : Envelope, x.typeName = e.typeName →
      (∀ y ∈ after, y.typeName ≠ e.typeName) → x.Serves (ofRegistrations xs) e ∧
        ∀ before', (ofRegistrations (before' ++ x :: after)).find? e.typeName =
          (ofRegistrations xs).find? e.typeName) ∧
    (∀ ys : List Registration, (∀ name, ys.filter (·.typeName = name) =
      xs.filter (·.typeName = name)) → ofRegistrations ys = ofRegistrations xs) ∧
    (ofRegistrations xs).typeNames.Pairwise (· < ·) ∧
    ∀ name, name ∈ (ofRegistrations xs).typeNames ↔ ∃ x ∈ xs, x.typeName = name := by
  refine ⟨fun name none_ => ?_, fun before x after split e own last => ?_, fun ys same => ?_,
    (ofRegistrations xs).bindings.pairwise_names, fun name => mem_typeNames_ofRegistrations⟩
  · rw [find?_ofRegistrations, Registration.last?_eq_none.2 none_]
    rfl
  · have found (before : List Registration) :
        (ofRegistrations (before ++ x :: after)).find? e.typeName = some x.binding := by
      rw [find?_ofRegistrations, Registration.last?_append_cons before own last]
      rfl
    subst split
    exact ⟨Registration.serves_of_found (found before), fun before' =>
      (found before').trans (found before).symm⟩
  · exact ofRegistrations_congr fun name => congrArg List.getLast? (same name)

/-! ### Two types of one name -/

namespace Sample

/-- A task that is described. -/
structure Ticket where
  text : String
  deriving DecidableEq

/-- A task that takes some milliseconds. -/
structure Tally where
  count : Nat
  deriving DecidableEq

instance : Message Ticket where
  typeName := "Task"
  toJson t := .ok (.string t.text)
  decoder := Json.Decoder.string.map Ticket.mk

instance : Message Tally where
  typeName := "Task"
  toJson t := .ok (.nat t.count)
  decoder := Json.Decoder.uint32.map Tally.mk

/-- Tickets are done at once. -/
def ticketed : Registration where
  Subject := Ticket
  handler _ _ := .finish .ok
  isFunction := false

/-- Tallies take their time. -/
def tallied : Registration where
  Subject := Tally
  handler _ t := .sleep t.count (.finish .ok)
  isFunction := true

/-- Messages of another type are never done. -/
def stuck : Registration where
  Subject := DomainRegistered
  handler _ _ := .hang
  isFunction := false

/-- A tally of seven. -/
def seven : Envelope where
  id := ⟨"m-3", by decide⟩
  receipt := ⟨"r-3"⟩
  typeName := "Task"
  headers := ∅
  payload := .ofText "\x7b\"value\": 7\x7d"
  receiveCount := 1

end Sample

/-- The tally is read as such when tallies are registered last, and is no ticket when tickets are,
wherever another type is registered. -/
theorem Registry.last_registration_wins_of_tasks :
    (∃ b, (ofRegistrations [Sample.ticketed, Sample.stuck, Sample.tallied]).find? "Task" = some b ∧
      b.start (.ofEnvelope Sample.seven false) Sample.seven = .ok (.sleep 7 (.finish .ok))) ∧
    (∃ b f, (ofRegistrations [Sample.tallied, Sample.ticketed]).find? "Task" = some b ∧
      b.start (.ofEnvelope Sample.seven false) Sample.seven = .error (.invalidPayload "Task" f)) ∧
    ofRegistrations [Sample.stuck, Sample.ticketed, Sample.tallied] =
      ofRegistrations [Sample.ticketed, Sample.stuck, Sample.tallied] := by
  obtain ⟨-, lasts, order, -⟩ :=
    last_registration_wins [Sample.ticketed, Sample.stuck, Sample.tallied]
  obtain ⟨-, lasts', -⟩ := last_registration_wins [Sample.tallied, Sample.ticketed]
  obtain ⟨tally, -⟩ := lasts [Sample.ticketed, Sample.stuck] Sample.tallied [] rfl Sample.seven rfl
    (List.forall_mem_nil _)
  obtain ⟨ticket, -⟩ := lasts' [Sample.tallied] Sample.ticketed [] rfl Sample.seven rfl
    (List.forall_mem_nil _)
  have read : readFrame Sample.Tally Sample.seven.payload = .ok ⟨7⟩ := by decide +kernel
  have unread : readFrame Sample.Ticket Sample.seven.payload =
      .error (.wrongType (.number (.whole 7)) "a string") := by decide +kernel
  refine ⟨⟨_, tally.found, tally.started false ⟨7⟩ read⟩,
    ⟨_, _, ticket.found, ticket.unreadable false _ unread⟩, order _ fun name => ?_⟩
  have apart : Sample.stuck.typeName ≠ Sample.ticketed.typeName := by decide
  by_cases own : Sample.stuck.typeName = name
  · have other : Sample.ticketed.typeName ≠ name := fun same => apart (own.trans same.symm)
    simp [List.filter_cons, other]
  · simp [List.filter_cons, own]

end Courier
