import Courier.Proofs.System.Continuation
import Courier.Proofs.System.Success

/-!
# Conservation

Nothing is lost or doubled on the way from the broker to the handlers. In every run each message
that was received is one delivery at one place, and no two calls of handlers are for one delivery.

A handler sees its delivery as the identifier of the message and the number that the broker has
given the delivery among those of the message. The numbers have thirty-two bits: they begin with
one, and start again after 2³² deliveries. So two calls can see the same only when there have been
more deliveries of a message than numbers.

## Main definitions

* `Envelope.sight`: what a handler sees of its delivery.
* `System.deliveredOf`: the deliveries of a message in a history.
* `System.Tells`: how the calls of a history tell their deliveries apart.

## Main results

* `System.Reached.tells`: calls see the same only after more deliveries than there are numbers.
* `System.conservation`: nothing is lost or doubled, in a run and beside the broker.
* `System.sights_recur`: two calls that see the same.
-/

namespace Courier

/-- What a handler sees of its delivery: the message and the number of the delivery. -/
def Envelope.sight (e : Envelope) : MessageId × UInt32 :=
  (e.id, e.receiveCount)

/-- Up to 2³² numbers in order have different last thirty-two bits. -/
theorem nodup_map_ofNat_range' {n : Nat} (few : n ≤ UInt32.size) :
    ((List.range' 1 n).map UInt32.ofNat).Nodup := by
  refine List.Nodup.map_on (fun i hi j hj same => ?_) (List.nodup_range' ..)
  have low := congrArg UInt32.toNat same
  rw [UInt32.toNat_ofNat', UInt32.toNat_ofNat'] at low
  rw [List.mem_range'_1] at hi hj
  rw [UInt32.size] at few
  omega

namespace System

/-- The deliveries of a message in a history, in order. -/
def deliveredOf (id : MessageId) (history : List Occurrence) : List Received :=
  (deliveries (incidentsOf history)).filter (·.id = id)

/-- How the calls of a history tell their deliveries apart. Each is for a delivery of its own, whose
message and number it sees. The deliveries of a message are numbered from one in thirty-two bits,
and the calls for a message that has been delivered no more than 2³² times see different numbers. -/
structure Tells (history : List Occurrence) : Prop where
  once : ((calls history).map (·.receipt)).Nodup
  told : ∀ e ∈ calls history,
    ∃ r ∈ deliveredOf e.id history, r.receipt = e.receipt ∧ r.receiveCount = e.receiveCount
  numbered : ∀ id, (deliveredOf id history).map (·.receiveCount) =
    (List.range' 1 (deliveredOf id history).length).map UInt32.ofNat
  apart : ∀ id, (deliveredOf id history).length ≤ UInt32.size →
    (((calls history).map Envelope.sight).filter (·.1 = id)).Nodup

variable {consumers : List Consumer} {history : List Occurrence} {handed : List Handout}
  {sys : System}

theorem Leads.numbered (h : Leads (initial consumers) history handed sys) (id : MessageId) :
    (deliveredOf id history).map (·.receiveCount) =
      (List.range' 1 (deliveredOf id history).length).map UInt32.ofNat := by
  obtain ⟨clock, -, clocked⟩ := h.clocked
  have made : .counted id ∉ handed.map Reception.handed := by simp
  have counts := clocked.attended.orderly.receiveCounts made
  have own : deliveredOf id history = (deliveriesOf id handed).map (·.delivery) := by
    rw [deliveredOf, ← clocked.handouts_eq, handouts, List.filterMap_map, List.filter_map]
    have all : handed.filterMap ((·.handout?) ∘ Reception.handed) = handed := List.filterMap_some
    rw [all]
    rfl
  rw [handoutsOf_map_handed, receptionsOf_map_handed, List.length_map] at counts
  rw [own, List.map_map, List.length_map]
  exact counts

theorem Reached.told (h : Reached consumers history sys) {e : Envelope}
    (called : e ∈ calls history) :
    ∃ r ∈ deliveredOf e.id history, r.receipt = e.receipt ∧ r.receiveCount = e.receiveCount := by
  obtain ⟨s, k, started⟩ := mem_calls.1 called
  obtain ⟨r, received, accepted⟩ := h.received_of_started started
  obtain ⟨id, receipt, count⟩ := Envelope.ofReceived_eq_ok accepted
  have delivered : r ∈ deliveries (incidentsOf history) :=
    h.received ▸ List.mem_map_of_mem received
  exact ⟨r, List.mem_filter.2 ⟨delivered, decide_eq_true id.symm⟩, receipt.symm, count.symm⟩

theorem Reached.receipt_of_sight (h : Reached consumers history sys) {e e' : Envelope}
    (called : e ∈ calls history) (called' : e' ∈ calls history) (same : e.sight = e'.sight)
    (few : (deliveredOf e.id history).length ≤ UInt32.size) : e.receipt = e'.receipt := by
  obtain ⟨id, count⟩ : e.id = e'.id ∧ e.receiveCount = e'.receiveCount := Prod.ext_iff.1 same
  obtain ⟨handed, leads⟩ := h.exists_leads
  obtain ⟨r, hr, receipt, number⟩ := h.told called
  obtain ⟨r', hr', receipt', number'⟩ := h.told called'
  have distinct := nodup_map_ofNat_range' few
  rw [← leads.numbered] at distinct
  have one : r = r' := List.inj_on_of_nodup_map distinct hr (id ▸ hr') <| by
    rw [number, number', count]
  rw [← receipt, ← receipt', one]

/-- The calls of a history tell their deliveries apart. -/
theorem Reached.tells (h : Reached consumers history sys) : Tells history where
  once := h.calls_nodup
  told _ called := h.told called
  numbered id := by
    obtain ⟨handed, leads⟩ := h.exists_leads
    exact leads.numbered id
  apart id few := by
    have once : ((calls history).filter (·.id = id)).Nodup :=
      (List.Nodup.of_map _ h.calls_nodup).filter _
    have only : ((calls history).map Envelope.sight).filter (·.1 = id) =
        ((calls history).filter (·.id = id)).map Envelope.sight := List.filter_map
    rw [only]
    refine once.map_on fun e he e' he' same => ?_
    obtain ⟨called, own⟩ := List.mem_filter.1 he
    obtain ⟨called', -⟩ := List.mem_filter.1 he'
    have receipt := h.receipt_of_sight called called' same (of_decide_eq_true own ▸ few)
    exact List.inj_on_of_nodup_map h.calls_nodup called called' receipt

/-- Nothing is lost or doubled inside a pipeline. In every run of a consumer, for any answers of
the backend and any order of the steps, each message that was received is one delivery at one
place, the messages enter the raw buffer in order, nothing happens to a delivery twice, and nothing
is discarded before the run is asked to end. With the in-memory broker, no two handlers are called
for one delivery, and no two that are called see one message with one number of the delivery, unless
the message is delivered more than 2³² times. -/
theorem conservation :
    (∀ c t p, Pipeline.Tracked c t p → t.Intact c p) ∧
    ∀ consumers history sys, Reached consumers history sys → Tells history :=
  ⟨fun _ _ _ h => h.intact, fun _ _ _ h => h.tells⟩

theorem conservation_of_errands :
    Pipeline.Tracked Sample.host Sample.welcomed.1 Sample.welcomed.2 ∧
    Sample.welcomed.1.Intact Sample.host Sample.welcomed.2 ∧
    Reached [Sample.clerk] Sample.errands.1 Sample.errands.2 ∧
    (calls Sample.errands.1).length = 2 ∧ Tells Sample.errands.1 :=
  ⟨Sample.welcomed_tracked, conservation.1 _ _ _ Sample.welcomed_tracked,
    Sample.errands_reached, rfl, conservation.2 _ _ _ Sample.errands_reached⟩

end System

/-! ### A message that is delivered too often -/

namespace Sample

/-- A consumer whose handler always fails. What it receives is not hidden from others. -/
def reluctant : Consumer where
  settings := { queue := counter.name, workers := 1, visibilitySeconds := 0, waitSeconds := 0 }
  registry := (∅ : Registry).add ⟨"Greeting", fun _ _ => .ok (.finish (.failed "not now"))⟩
  queue := window

/-- The greeting that the consumer receives again and again. -/
def worn (count : UInt32) (receipt : Option Receipt) : Stored where
  id := (Mint.drawMessageId {}).1
  body := letter.body
  attributes := letter.attributes
  group := none
  receiveCount := count
  visibleAt := 0
  receipt := receipt

/-- A delivery of the greeting. -/
def arrival (next : Nat) (count : UInt32) : Received :=
  (worn count none).toReceived ⟨Mint.text next⟩

/-- Its envelope. -/
def cover (next : Nat) (count : UInt32) : Envelope where
  id := (arrival next count).id
  receipt := ⟨Mint.text next⟩
  typeName := "Greeting"
  headers := ∅
  payload := []
  receiveCount := count + 1

/-- The broker with the greeting, after the given number of calls and of fresh identifiers. -/
def shelf (received next : Nat) (count : UInt32) (receipt : Option Receipt) : Broker where
  queues := [(window.url, ⟨false, [worn count receipt], []⟩)]
  addresses := [(counter, window.url)]
  calls := { receive := received, send := 1 }
  mint := ⟨next⟩

/-- A run of the consumer beside the broker. -/
def stage (b : Broker) (u : Unsettled) (p : Pipeline) : System where
  broker := b
  subscribers := [⟨reluctant, u, [{ pipeline := p }]⟩]

/-- What the run does with a delivery. -/
def refusal (next : Nat) (count : UInt32) : List Event :=
  [.buffered (arrival next count), .decoded (cover next count), .started (cover next count),
    .returned (cover next count) (.failed "not now"),
    .failed (cover next count) (.handler "not now"), .settled (cover next count)]

/-- A delivery in the history, with what the run does with it. -/
def effort (next : Nat) (count : UInt32) : List System.Occurrence :=
  .incident (.delivered window.url (arrival next count)) ::
    (.received [arrival next count] :: refusal next count).map (.event 0 0)

end Sample

namespace System

open Sample

/-- A step of the pipeline that needs no answer of the broker. -/
theorem leads_of_internal {b : Broker} {u : Unsettled} {p : Pipeline} {a : Courier.Action}
    {x : Transition} (internal : a.isInternal = true) (step : p.step reluctant u a = some x) :
    ∃ handed, Leads (stage b u p) (x.events.map (.event 0 0)) handed
      (stage b x.unsettled x.pipeline) := by
  have made : (stage b u p).step (.move 0 0 (.internal a)) =
      some (stage b x.unsettled x.pipeline, x.events) := by
    simp only [System.step, stage, List.getElem?_cons_zero, Option.bind_eq_bind, Option.bind_some,
      Run.step, internal, Run.lift, step]
    rfl
  exact ⟨_, Leads.refl.step made⟩

theorem leads_stage : Leads (initial [reluctant]) [.incident (.stored window.url (worn 0 none))] []
    (stage (shelf 0 1 0 none) ∅ (.initial reluctant)) := by
  have made : lead [] [] (initial [reluctant])
      [.create counter, .send window { letter with group := none }, .start 0] =
        some (_, _, stage (shelf 0 1 0 none) ∅ (.initial reluctant)) := rfl
  exact Leads.refl.lead made

/-- The run receives the greeting. -/
theorem stage_receives (received next : Nat) (count : UInt32) (receipt : Option Receipt) :
    ∃ handed, Leads (stage (shelf received next count receipt) ∅ (.initial reluctant))
      [.incident (.delivered window.url (arrival next count)),
        .event 0 0 (.received [arrival next count])] handed
      (stage (shelf (received + 1) (next + 1) (count + 1) (some ⟨Mint.text next⟩)) ∅
        { poller := .delivering [arrival next count], workers := [.idle] }) := by
  let options := reluctant.settings.receiveOptions
  let run : Run := { pipeline := { poller := .receiving, workers := [.idle] } }
  let before := shelf (received + 1) next count receipt
  let after := shelf (received + 1) (next + 1) (count + 1) (some ⟨Mint.text next⟩)
  have called : (stage (shelf received next count receipt) ∅ (.initial reluctant)).step
      (.move 0 0 .beginReceive) = some (stage before ∅ run.pipeline, []) := rfl
  have found : before.check 0 window options = (.ok [arrival next count], after) := rfl
  have looked : run.look reluctant 0 before ∅ = some
      ⟨after, ∅, { pipeline := { poller := .delivering [arrival next count], workers := [.idle] } },
        [.received [arrival next count]]⟩ := rfl
  have answered : (stage before ∅ run.pipeline).step (.move 0 0 .look) = some
      (stage after ∅ { poller := .delivering [arrival next count], workers := [.idle] },
        [.received [arrival next count]]) := by
    simp only [System.step, stage, List.getElem?_cons_zero, Option.bind_eq_bind, Option.bind_some,
      Run.step]
    rw [looked]
    rfl
  have delivered : before.incidents 0 (.check window options) =
      [.delivered window.url (arrival next count)] := by
    simp only [Broker.incidents, found, List.map_cons, List.map_nil]
  have told : (stage before ∅ run.pipeline).occurrences (.move 0 0 .look)
      [.received [arrival next count]] =
      [.incident (.delivered window.url (arrival next count)),
        .event 0 0 (.received [arrival next count])] := by
    have call : (stage before ∅ run.pipeline).call? (.move 0 0 .look) =
      some (.check window options) := rfl
    rw [occurrences, call]
    show (before.incidents 0 (.check window options)).map _ ++ _ = _
    rw [delivered]
    rfl
  have receives := (Leads.refl.step called).step answered
  rw [told] at receives
  exact ⟨_, receives⟩

theorem stage_fails (b : Broker) (next : Nat) (count : UInt32) : ∃ handed,
    Leads (stage b ∅ { poller := .delivering [arrival next count], workers := [.idle] })
      ((refusal next count).map (.event 0 0)) handed (stage b ∅ (.initial reluctant)) := by
  let r := arrival next count
  let e := cover next count
  let u : Unsettled := (∅ : Unsettled).insert e.id e.receipt
  let end_ : Activity := .finish (.failed "not now")
  -- The poller, the worker with the raw buffer, and the worker with the decoded buffer.
  obtain ⟨_, push⟩ := leads_of_internal (b := b) (u := ∅) (a := .push)
    (p := { poller := .delivering [r], workers := [.idle] })
    (x := ⟨∅, { raw := [r], workers := [.idle] }, [.buffered r]⟩) rfl rfl
  obtain ⟨_, take⟩ := leads_of_internal (b := b) (u := ∅) (a := .takeRaw 0)
    (p := { raw := [r], workers := [.idle] }) (x := ⟨∅, { workers := [.decoding r] }, []⟩) rfl rfl
  obtain ⟨_, decode⟩ := leads_of_internal (b := b) (u := ∅) (a := .decode 0)
    (p := { workers := [.decoding r] })
    (x := ⟨u, { workers := [.offering e] }, [.decoded e]⟩) rfl rfl
  obtain ⟨_, offer⟩ := leads_of_internal (b := b) (u := u) (a := .offer 0)
    (p := { workers := [.offering e] })
    (x := ⟨u, { decoded := [e], workers := [.idle] }, []⟩) rfl rfl
  obtain ⟨_, start⟩ := leads_of_internal (b := b) (u := u) (a := .takeDecoded 0)
    (p := { decoded := [e], workers := [.idle] })
    (x := ⟨u, { workers := [.dispatching e] }, []⟩) rfl rfl
  obtain ⟨_, call⟩ := leads_of_internal (b := b) (u := u) (a := .start 0)
    (p := { workers := [.dispatching e] })
    (x := ⟨u, { workers := [.handling e end_] }, [.started e]⟩) rfl rfl
  obtain ⟨_, fail⟩ := leads_of_internal (b := b) (u := u) (a := .proceed 0)
    (p := { workers := [.handling e end_] })
    (x := ⟨u.settleEnvelope e, .initial reluctant, [.returned e (.failed "not now"),
      .failed e (.handler "not now"), .settled e]⟩) rfl rfl
  have empty : u.settleEnvelope e = ∅ := by
    have current : u.isCurrent e.id e.receipt = true := by
      simp [u, Unsettled.isCurrent, Unsettled.insert, Unsettled.find?]
    rw [Unsettled.settleEnvelope, Unsettled.settle, if_pos current]
    rfl
  rw [empty] at fail
  exact ⟨_, push.trans (take.trans (decode.trans (offer.trans (start.trans (call.trans fail)))))⟩

/-- The run receives the greeting once more, and its handler fails once more. -/
theorem stage_leads (received next : Nat) (count : UInt32) (receipt : Option Receipt) :
    ∃ handed, Leads (stage (shelf received next count receipt) ∅ (.initial reluctant))
      (effort next count) handed
      (stage (shelf (received + 1) (next + 1) (count + 1) (some ⟨Mint.text next⟩)) ∅
        (.initial reluctant)) := by
  obtain ⟨_, receives⟩ := stage_receives received next count receipt
  obtain ⟨_, fails⟩ := stage_fails _ next count
  exact ⟨_, receives.trans fails⟩

/-- The handler can fail any number of times. -/
theorem exists_stage (n : Nat) : ∃ history handed receipt,
    Leads (initial [reluctant]) history handed
      (stage (shelf n (n + 1) (.ofNat n) receipt) ∅ (.initial reluctant)) ∧
      (calls history).map Envelope.sight =
        (List.range n).map fun i => ((worn 0 none).id, UInt32.ofNat (i + 1)) := by
  induction n with
  | zero => exact ⟨_, _, _, leads_stage, rfl⟩
  | succ n ih =>
    obtain ⟨history, handed, receipt, leads, sights⟩ := ih
    obtain ⟨more, further⟩ := stage_leads n (n + 1) (.ofNat n) receipt
    have next : UInt32.ofNat n + 1 = .ofNat (n + 1) := (UInt32.ofNat_add n 1).symm
    have sight : (calls (effort (n + 1) (.ofNat n))).map Envelope.sight =
        [((worn 0 none).id, .ofNat (n + 1))] := next ▸ rfl
    rw [next] at further
    refine ⟨_, _, _, leads.trans further, ?_⟩
    rw [calls_append, List.map_append, sights, sight, List.range_succ, List.map_append]
    rfl

/-- Two calls of handlers see one message with one number of the delivery: the first one, and the
one after 2³² others. -/
theorem sights_recur : ¬∀ consumers history sys, Reached consumers history sys →
    ((calls history).map Envelope.sight).Nodup := by
  intro distinct
  obtain ⟨history, handed, receipt, leads, sights⟩ := exists_stage (UInt32.size + 1)
  have nodup := distinct _ _ _ leads.reached
  rw [sights] at nodup
  have one : 0 = UInt32.size := List.inj_on_of_nodup_map nodup (List.mem_range.2 (by decide))
    (List.mem_range.2 (by decide)) rfl
  cases one

end System

end Courier
