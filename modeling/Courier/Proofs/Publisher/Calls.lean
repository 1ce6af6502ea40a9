import Courier.Proofs.Backend
import Courier.Proofs.Broker.Windows
import Courier.Proofs.Publisher

/-!
# The calls of publishers

A publisher makes one call for each value, or none if the value has no JSON form. The call goes to
the queue that was found for the settings, carries what the value is written as, and always names a
group and a deduplication identifier. What the backend answers is passed on as it is.

Since there is always a group, a queue that keeps its messages in order never misses one. And since
the deduplication identifier is fresh unless the caller chose one, a send stores a message of its
own, however often the same value has been sent, and stands in the way of no later send.

## Main definitions

* `Publisher.Carries`: a message carries a value, with the group and the deduplication identifier
  that the options, the value and the settings call for.
* `Publisher.SendsOnce`, `Publisher.StoredApart`: how a publisher sends, and a message that takes
  the place of no other.

## Main results

* `Publisher.run_connect_eq_ok`: when a publisher comes to be, and with which queue.
* `Publisher.outbound_eq_ok_iff`: the message that is made of a value carries it.
* `Publisher.sends_in_one_call`: a send is one faithful call, and takes the place of no other.
-/

namespace Courier.Publisher

/-- A message carries a value that is written as `sent`. The group is that of the options, else the
business key of the value, else that of the settings; the deduplication identifier is that of the
options, else the fresh one. -/
structure Carries {M : Type} [Message M] (p : Publisher) (m : M) (o : SendOptions) (fresh : String)
    (sent out : Outbound) : Prop where
  body : out.body = sent.body
  attributes : out.attributes = sent.attributes
  group : out.group = some (o.group.getD ((Message.groupKey m).getD p.settings.group))
  deduplication : out.deduplication = some (o.deduplication.getD fresh)

variable {σ M : Type} [Message M] {p : Publisher} {m : M} {o : SendOptions} {fresh : String}
  {sent out : Outbound} {e : EnvelopeError}

/-! ### One call -/

theorem connect_eq (k : Backend σ) (settings : PublisherSettings) :
    connect k settings = k.connect settings.validate settings.locator (⟨settings, ·⟩) := rfl

/-- A publisher comes to be when its settings are right and its queue is found. -/
theorem run_connect_eq_ok {k : Backend σ} {settings : PublisherSettings} {s s' : σ} :
    (connect k settings).run s = (.ok p, s') ↔ settings.validate = .ok () ∧
      p.settings = settings ∧ (k.resolve settings.locator).run s = (.ok p.queue, s') := by
  obtain ⟨_, queue⟩ := p
  cases valid : settings.validate with
  | error e =>
    rw [connect_eq, valid, Backend.run_connect_error]
    exact ⟨nofun, fun h => nomatch h.1⟩
  | ok =>
    rw [connect_eq, valid, Backend.run_connect_ok]
    rcases (k.resolve settings.locator).run s with ⟨e | queue', s''⟩
    · exact ⟨nofun, fun h => nomatch h.2.2⟩
    · constructor
      · rintro ⟨⟩
        exact ⟨rfl, rfl, rfl⟩
      · rintro ⟨-, rfl, found⟩
        cases found
        rfl

/-- The message that is made of a value carries what the value is written as. -/
theorem outbound_eq_ok_iff : p.outbound m o fresh = .ok out ↔
    ∃ sent, Outbound.ofMessage m o.headers = .ok sent ∧ p.Carries m o fresh sent out := by
  have group : p.groupOf m o = o.group.getD ((Message.groupKey m).getD p.settings.group) := by
    cases chosen : o.group <;> simp [groupOf, chosen]
  cases written : Outbound.ofMessage m o.headers with
  | error e => simp [outbound, written, Except.map]
  | ok sent =>
    simp only [outbound, written, Except.map, group, Except.ok.injEq, exists_eq_left']
    constructor
    · rintro rfl
      exact ⟨rfl, rfl, rfl, rfl⟩
    · rintro ⟨body, attributes, group, deduplication⟩
      rw [← body, ← attributes, ← group, ← deduplication]

theorem send_of_outbound (k : Backend σ) (made : p.outbound m o fresh = .ok out) :
    p.send k m o fresh = k.send p.queue out := by
  simp only [send, made]

/-- A value that cannot be written is not sent. -/
theorem send_of_unwritten (k : Backend σ) (unwritten : Outbound.ofMessage m o.headers = .error e) :
    p.send k m o fresh = pure (.error (.serialization e)) := by
  have refused : p.outbound m o fresh = .error e := by
    rw [outbound, unwritten]
    rfl
  simp only [send, refused]

/-- A send does not notice that its call is written down. -/
theorem mirrors_send (k : Backend σ) (p : Publisher) (m : M) (o : SendOptions) (fresh : String) :
    Backend.Mirrors (p.send k.recorded m o fresh) (p.send k m o fresh) := by
  cases made : p.outbound m o fresh with
  | error e =>
    simp only [send, made]
    exact .pure _
  | ok out =>
    rw [send_of_outbound _ made, send_of_outbound _ made]
    exact .send k p.queue out

theorem group_of_outbound (made : p.outbound m o fresh = .ok out) : out.group ≠ none := by
  obtain ⟨sent, -, carries⟩ := outbound_eq_ok_iff.1 made
  rw [carries.group]
  nofun

/-- Unless the caller chooses a deduplication identifier, it is the fresh one. -/
theorem deduplication_of_outbound (made : p.outbound m o fresh = .ok out)
    (unchosen : o.deduplication = none) : out.deduplication = some fresh := by
  obtain ⟨sent, -, carries⟩ := outbound_eq_ok_iff.1 made
  rw [carries.deduplication, unchosen]
  rfl

/-! ### All sends -/

/-- A message that is sent to a broker after the calls `before` and has the identifier `id` takes
the place of no other, whatever calls come `behind`. It is stored behind those that are there,
however many of them carry the same value, and its identifier is in the answer to no earlier and no
later send. -/
structure StoredApart (before behind : List (Nat × Broker.Call)) (now : Nat) (q : Identity)
    (out : Outbound) (id : MessageId) : Prop where
  stored : ∀ url, ((({} : Broker).afterAll before).after now (.send q out)).messages url =
    if url = q.url then (({} : Broker).afterAll before).messages url ++ [out.toStored id now]
    else (({} : Broker).afterAll before).messages url
  earlier : ∀ x ∈ ({} : Broker).transcript before, x.reply ≠ .sent (.ok id)
  later : ∀ x ∈ ((({} : Broker).afterAll before).after now (.send q out)).transcript behind,
    x.reply ≠ .sent (.ok id)

/-- How a publisher sends a value with the options `o`, when `fresh` is the identifier that is drawn
for it. A value that cannot be written is refused without a call. For every other value there is one
send call, to the queue of the publisher, with a message that carries the value; its answer is the
answer of the send, and what it does to the backend is all that the send does. -/
structure SendsOnce {M : Type} [Message M] (p : Publisher) (m : M) (o : SendOptions)
    (fresh : String) : Prop where
  /-- The backend need not write down its calls. -/
  unnoticed : ∀ {σ : Type} (k : Backend σ) calls s, (p.send k m o fresh).run s =
    (((p.send k.recorded m o fresh).run (calls, s)).1,
      ((p.send k.recorded m o fresh).run (calls, s)).2.2)
  unwritten : ∀ {σ : Type} (k : Backend σ) calls s e, Outbound.ofMessage m o.headers = .error e →
    (p.send k.recorded m o fresh).run (calls, s) = (.error (.serialization e), calls, s)
  written : ∀ {σ : Type} (k : Backend σ) calls s sent, Outbound.ofMessage m o.headers = .ok sent →
    ∃ out, p.Carries m o fresh sent out ∧ (p.send k.recorded m o fresh).run (calls, s) =
      (((k.send p.queue out).run s).1, calls ++ [.send p.queue out],
        ((k.send p.queue out).run s).2)
  /-- The in-memory backend misses no group. -/
  grouped : ∀ now b, ((p.send (Broker.backend now) m o fresh).run b).1 ≠
    .error (.validation (.required "message_group_id"))
  /-- It accepts the message when the queue is there, no failure is asked for, and the message is
  not too large. -/
  accepted : ∀ now b out queue, p.outbound m o fresh = .ok out →
    b.queue? p.queue.url = some queue → b.faults.send = 0 → out.size ≤ sizeLimit →
      ∃ id, ((p.send (Broker.backend now) m o fresh).run b).1 = .ok id
  /-- When the deduplication identifier is not chosen, and the fresh one is that of no other send of
  the run, an accepted message takes the place of no other. -/
  apart : ∀ now id b' (before behind : List (Nat × Broker.Call)), o.deduplication = none →
    (∀ t q m, (t, .send q m) ∈ before ++ behind → m.deduplication ≠ some fresh) →
    (p.send (Broker.backend now) m o fresh).run (({} : Broker).afterAll before) = (.ok id, b') →
      ∃ out, p.outbound m o fresh = .ok out ∧
        b' = (({} : Broker).afterAll before).after now (.send p.queue out) ∧
        StoredApart before behind now p.queue out id

/-- **A send is one faithful call, and takes the place of no other.** A publisher comes to be only
when its settings are right, and then sends to the queue that was found for them. Over any backend
it makes one call for a value that can be written, and none for any other value. Over the in-memory
backend no send is refused for a group that is missing. Unless the caller chooses a deduplication
identifier, an accepted message is stored beside all others, and no later send is answered with its
identifier. -/
theorem sends_in_one_call :
    (∀ {σ : Type} (k : Backend σ) (settings : PublisherSettings) p s s',
      (connect k settings).run s = (.ok p, s') ↔ settings.validate = .ok () ∧
        p.settings = settings ∧ (k.resolve settings.locator).run s = (.ok p.queue, s')) ∧
    ∀ {M : Type} [Message M] (p : Publisher) (m : M) (o : SendOptions) fresh,
      p.SendsOnce m o fresh := by
  refine ⟨fun k settings p s s' => run_connect_eq_ok, fun {M} _ p m o fresh => ?_⟩
  constructor
  case unnoticed => exact fun k calls s => mirrors_send k p m o fresh calls s
  case unwritten =>
    intro σ k calls s e refused
    rw [send_of_unwritten _ refused]
    rfl
  case written =>
    intro σ k calls s sent written
    have carries : p.Carries m o fresh sent
        ⟨sent.body, sent.attributes, some _, some _⟩ := ⟨rfl, rfl, rfl, rfl⟩
    have made := outbound_eq_ok_iff.2 ⟨sent, written, carries⟩
    exact ⟨_, carries, by rw [send_of_outbound _ made, Backend.recorded_send]⟩
  case grouped =>
    intro now b
    cases made : p.outbound m o fresh with
    | error e =>
      simp only [send, made]
      exact fun same => by cases same
    | ok out =>
      rw [send_of_outbound _ made]
      exact b.send_ne_ungrouped now p.queue (group_of_outbound made)
  case accepted =>
    intro now b out queue made there unspent size
    have admits : b.Admits p.queue out queue :=
      ⟨unspent, size, there, fun _ => group_of_outbound made⟩
    rw [send_of_outbound _ made]
    exact ⟨_, (Broker.send_admitted now admits).1⟩
  case apart =>
    intro now id b' before behind unchosen others sent
    cases made : p.outbound m o fresh with
    | error e =>
      rw [send, made] at sent
      cases sent
    | ok out =>
      rw [send_of_outbound _ made] at sent
      have answer : ((({} : Broker).afterAll before).send now p.queue out).1 = .ok id :=
        congrArg Prod.fst sent
      have after : (({} : Broker).afterAll before).after now (.send p.queue out) = b' :=
        congrArg Prod.snd sent
      have own := deduplication_of_outbound made unchosen
      obtain ⟨stored, earlier, later⟩ := Broker.sent_under_own_key own others answer
      exact ⟨out, rfl, after.symm, stored, earlier, later⟩

end Courier.Publisher

/-! ### A registration that is sent three times -/

namespace Courier

namespace Sample

/-- A registration as it is sent with a fresh identifier. -/
def copy (fresh : String) : Outbound :=
  ((registrar.outbound registration {} fresh).toOption).getD { body := "" }

/-- The drawer has been created, and the registration has been sent to it. -/
def firstCopy : List (Nat × Broker.Call) :=
  [(0, .create drawer), (0, .send cabinet (copy "a"))]

/-- The registration is sent once more. -/
def thirdCopy : List (Nat × Broker.Call) :=
  [(2, .send cabinet (copy "c"))]

end Sample

namespace Publisher

/-- The second copy is stored beside the first one, and the third one is not taken for it. -/
theorem sends_in_one_call_of_copies : ∃ id b,
    (Sample.registrar.send (Broker.backend 1) Sample.registration {} "b").run
      (({} : Broker).afterAll Sample.firstCopy) = (.ok id, b) ∧
    (b.messages Sample.cabinet.url).length = 2 ∧
    (b.send 2 Sample.cabinet (Sample.copy "c")).1 ≠ .ok id := by
  have keys : (Sample.copy "a").deduplication = some "a" ∧
      (Sample.copy "c").deduplication = some "c" := by decide +kernel
  have others : ∀ t q m, (t, .send q m) ∈ Sample.firstCopy ++ Sample.thirdCopy →
      m.deduplication ≠ some "b" := by
    intro t q m mem
    simp only [Sample.firstCopy, Sample.thirdCopy, List.cons_append, List.nil_append, List.mem_cons,
      Prod.mk.injEq, reduceCtorEq, Broker.Call.send.injEq, List.not_mem_nil, and_false, false_or,
      or_false] at mem
    rcases mem with ⟨-, -, rfl⟩ | ⟨-, -, rfl⟩ <;> simp [keys]
  obtain ⟨id, b, sent⟩ : ∃ id b,
      (Sample.registrar.send (Broker.backend 1) Sample.registration {} "b").run
        (({} : Broker).afterAll Sample.firstCopy) = (.ok id, b) :=
    ⟨⟨Mint.text 1, by decide⟩, _, Prod.ext (by decide +kernel) rfl⟩
  obtain ⟨-, once⟩ := sends_in_one_call
  obtain ⟨out, made, rfl, apart⟩ := (once Sample.registrar Sample.registration {} "b").apart 1 id b
    Sample.firstCopy Sample.thirdCopy rfl others sent
  refine ⟨id, _, sent, ?_, fun answer => ?_⟩
  · have grown := (apart.stored Sample.cabinet.url).trans (if_pos rfl)
    have before : ((({} : Broker).afterAll Sample.firstCopy).messages
      Sample.cabinet.url).length = 1 := by decide +kernel
    rw [grown, List.length_append, before]
    rfl
  · exact apart.later _ List.mem_cons_self (congrArg Broker.Reply.sent answer)

end Publisher

end Courier
