import Courier.Proofs.Broker.Receipts
import Courier.Proofs.System.Leases

/-!
# Success once

When every delivery that is decoded is settled before its lease is over, a message is leased to one
run at a time, for as long as that run works on it. So the delete call of the run finds the message
under the receipt that the run has, and a handler that has ended well is the last one that sees the
message. Handlers that fail give the message back, and it is delivered again.

## Main definitions

* `System.decodings`, `System.settlings`: the envelopes that a run has decoded, and when it has
  settled one.
* `System.Punctual`: what is decoded is settled before its lease is over.

## Main results

* `System.Undisturbed.holds`: the message of an envelope in the hand of a worker is in its queue and
  hidden.
* `System.Undisturbed.succeeds_once`: no delete call fails, and a handler succeeds once for a
  message.
-/

namespace Courier.System

/-- The envelope that a run has decoded with an entry. -/
def Occurrence.decoded? (s k : Nat) : Occurrence → Option Envelope
  | .event s' k' (.decoded e) => if s' = s ∧ k' = k then some e else none
  | _ => none

/-- Whether a run has settled an envelope with an entry. -/
def Occurrence.settles (s k : Nat) (e : Envelope) : Occurrence → Bool
  | .event s' k' (.settled e') => s' = s ∧ k' = k ∧ e' = e
  | _ => false

/-- The envelopes that a run has decoded. -/
def decodings (s k : Nat) (history : List (Nat × Occurrence)) : List Envelope :=
  history.filterMap fun x => x.2.decoded? s k

/-- The instants at which a run has settled an envelope. -/
def settlings (s k : Nat) (e : Envelope) (history : List (Nat × Occurrence)) : List Nat :=
  (history.filter fun x => x.2.settles s k e).map (·.1)

/-- Every delivery that is decoded is settled before its lease is over. If it is not settled yet,
its lease is not over yet. -/
def Punctual (consumers : List Consumer) (history : List (Nat × Occurrence)) (now : Nat) : Prop :=
  ∀ l ∈ leases consumers history, ∀ e ∈ decodings l.s l.k history,
    e.receipt = l.delivery.receipt →
      (∃ t ∈ settlings l.s l.k e history, t < l.expiry) ∨
        settlings l.s l.k e history = [] ∧ now < l.expiry

instance (consumers : List Consumer) (history : List (Nat × Occurrence)) (now : Nat) :
    Decidable (Punctual consumers history now) :=
  inferInstanceAs (Decidable (∀ l ∈ _, ∀ e ∈ decodings _ _ _, _ → _))

variable {consumers : List Consumer} {history : List (Nat × Occurrence)} {sys sys' : System}
  {a : Action} {events : List Event} {s k : Nat} {e : Envelope}

theorem mem_decodings :
    e ∈ decodings s k history ↔ ∃ t, (t, .event s k (.decoded e)) ∈ history := by
  simp only [decodings, List.mem_filterMap]
  constructor
  · rintro ⟨⟨t, o⟩, mem, own⟩
    rcases o with i | ⟨s', k', ev⟩
    · cases own
    · cases ev with
      | decoded e' =>
        simp only [Occurrence.decoded?] at own
        split at own
        · next same =>
          obtain ⟨rfl, rfl⟩ := same
          cases own
          exact ⟨t, mem⟩
        · cases own
      | _ => cases own
  · rintro ⟨t, mem⟩
    exact ⟨_, mem, if_pos ⟨rfl, rfl⟩⟩

theorem mem_settlings {t : Nat} :
    t ∈ settlings s k e history ↔ (t, .event s k (.settled e)) ∈ history := by
  simp only [settlings, List.mem_map, List.mem_filter]
  constructor
  · rintro ⟨⟨t, o⟩, ⟨mem, own⟩, rfl⟩
    rcases o with i | ⟨s', k', ev⟩
    · cases own
    · cases ev with
      | settled e' =>
        obtain ⟨rfl, rfl, rfl⟩ : s' = s ∧ k' = k ∧ e' = e := of_decide_eq_true own
        exact mem
      | _ => cases own
  · intro mem
    exact ⟨_, ⟨mem, decide_eq_true ⟨rfl, rfl, rfl⟩⟩, rfl⟩

theorem settlings_append (history history' : List (Nat × Occurrence)) :
    settlings s k e (history ++ history') =
      settlings s k e history ++ settlings s k e history' := by
  simp [settlings]

/-- What is punctual has been so at every earlier instant. -/
theorem Punctual.earlier {past rest : List (Nat × Occurrence)} {now now' : Nat}
    (h : Punctual consumers (past ++ rest) now') (le : now ≤ now')
    (before : ∀ x ∈ past, x.1 ≤ now) (after : ∀ x ∈ rest, now ≤ x.1) :
    Punctual consumers past now := by
  intro l leased e decoded own
  have whole : l ∈ leases consumers (past ++ rest) := by
    rw [leases_append]
    exact List.mem_append_left _ leased
  obtain ⟨t, read⟩ := mem_decodings.1 decoded
  have met := h l whole e (mem_decodings.2 ⟨t, List.mem_append_left _ read⟩) own
  rw [settlings_append] at met
  rcases met with ⟨t, settled, inTime⟩ | ⟨none_, inTime⟩
  · rcases List.mem_append.1 settled with settled | settled
    · exact .inl ⟨t, settled, inTime⟩
    · have later : now ≤ t := after _ (mem_settlings.1 settled)
      cases met : settlings l.s l.k e past with
      | nil => exact .inr ⟨rfl, Nat.lt_of_le_of_lt later inTime⟩
      | cons t' ts =>
        have first : t' ∈ settlings l.s l.k e past := met ▸ List.mem_cons_self
        have early : t' ≤ now := before _ (mem_settlings.1 first)
        exact .inl ⟨t', List.mem_cons_self, by omega⟩
  · exact .inr ⟨(List.append_eq_nil_iff.1 none_).1, Nat.lt_of_le_of_lt le inTime⟩

/-! ### What runs receive is theirs -/

section

variable {history : List Occurrence}

theorem Reached.received_unique (h : Reached consumers history sys) {s' k' : Nat} {r r' : Received}
    (received : ((s, k), r) ∈ receivedIn history) (received' : ((s', k'), r') ∈ receivedIn history)
    (same : r.receipt = r'.receipt) : s = s' ∧ k = k' ∧ r = r' := by
  cases List.inj_on_of_nodup_map h.receipts_nodup received received' same
  exact ⟨rfl, rfl, rfl⟩

/-- An event that bears an envelope is one of a delivery of its run. -/
theorem delivery_of_envelope {c : Consumer} {t : Track} {p : Pipeline}
    (tracked : Pipeline.Tracked c t p) (events_eq : t.events = eventsOf s k history) {ev : Event}
    (mem : .event s k ev ∈ history) (bears : ev.envelope? = some e) :
    ∃ d ∈ t.deliveries, ev ∈ d.events ∧ Envelope.ofReceived d.message = .ok e := by
  have inside : ev ∈ t.events := by
    rw [events_eq]
    exact mem_eventsOf.2 mem
  obtain ⟨d, hd, shown⟩ := tracked.delivery_of_event inside (Event.isGeneral_of_envelope bears)
  exact ⟨d, hd, shown, (tracked.course d hd).accepted shown bears⟩

/-- What bears the receipt of a delivery is about that delivery. -/
theorem Reached.event_of_receipt (h : Reached consumers history sys) {c : Consumer} {t : Track}
    {p : Pipeline} (tracked : Pipeline.Tracked c t p) (events_eq : t.events = eventsOf s k history)
    {d : Delivery} (hd : d ∈ t.deliveries) {s' k' : Nat} {ev : Event}
    (mem : .event s' k' ev ∈ history) (bears : ev.envelope? = some e)
    (same : e.receipt = d.message.receipt) : s' = s ∧ k' = k ∧ ev ∈ d.events := by
  have received := mem_receivedIn tracked events_eq (tracked.mem_received hd)
  have at_ {s k : Nat} {c : Consumer} {t : Track} {p : Pipeline}
      (tracked : Pipeline.Tracked c t p) (events_eq : t.events = eventsOf s k history)
      {d : Delivery} (hd : d ∈ t.deliveries) (accepted : Envelope.ofReceived d.message = .ok e) :
      ((s, k), d.message) ∈ receivedIn history ∧ d.message.receipt = e.receipt :=
    ⟨mem_receivedIn tracked events_eq (tracked.mem_received hd),
      (Envelope.ofReceived_eq_ok accepted).2.1.symm⟩
  obtain ⟨sub, run, hs, hk⟩ := h.run_of_event mem
  obtain ⟨t', tracked', events_eq'⟩ := h.follows.tracked s' sub k' run hs hk
  obtain ⟨d', hd', -, accepted'⟩ := delivery_of_envelope tracked' events_eq' mem bears
  obtain ⟨received', own⟩ := at_ tracked' events_eq' hd' accepted'
  obtain ⟨rfl, rfl, -⟩ := h.received_unique received' received (own.trans same)
  -- The event is in the account of this run, where no other delivery has the receipt.
  obtain ⟨d'', hd'', shown, accepted''⟩ := delivery_of_envelope tracked events_eq mem bears
  obtain ⟨received'', own⟩ := at_ tracked events_eq hd'' accepted''
  obtain ⟨-, -, eq⟩ := h.received_unique received'' received (own.trans same)
  obtain rfl := h.delivery_unique tracked events_eq hd'' hd (congrArg Received.receipt eq)
  exact ⟨rfl, rfl, shown⟩

end

/-! ### Steps of runs -/

/-- The step with which a handler ends well is one of its worker, and adds nothing else to the
history. -/
theorem handling_of_returned (hx : sys.step a = some (sys', events))
    (mem : .event s k (.returned e .ok) ∈ sys.occurrences a events) :
    sys.occurrences a events = [.event s k (.returned e .ok)] ∧ ∃ sub run, ∃ w : Nat,
      sys.subscribers[s]? = some sub ∧ sub.runs[k]? = some run ∧
      run.pipeline.workers[w]? = some (.handling e (.finish .ok)) := by
  obtain ⟨m, sub, run, effect, rfl, hs, hk, makes, rfl, -, shown⟩ := move_of_event hx mem
  obtain ⟨a, x, moves, same, steps⟩ := makes.of_envelope shown rfl
  obtain ⟨w, at_, rfl, only⟩ := moves.handling_of_returned (same ▸ shown)
  refine ⟨?_, sub, run, w, hs, hk, at_⟩
  rw [occurrences, call?_move hs hk, steps.internal rfl, ← same, only]
  rfl

/-- The step with which a delete call is answered is the call, which a worker makes. -/
theorem deleting_of_deleted (hx : sys.step a = some (sys', events))
    {answer : Except QueueError Unit}
    (mem : .event s k (.deleted e answer) ∈ sys.occurrences a events) : ∃ sub run, ∃ w : Nat,
      sys.subscribers[s]? = some sub ∧ sub.runs[k]? = some run ∧
      run.pipeline.workers[w]? = some (.deleting e) ∧
      sys.call? a = some (.delete sub.consumer.queue e.receipt) ∧
      answer = (sys.broker.delete sub.consumer.queue e.receipt).1 := by
  obtain ⟨m, sub, run, effect, rfl, hs, hk, makes, rfl, -, shown⟩ := move_of_event hx mem
  obtain ⟨a, x, moves, same, steps⟩ := makes.of_envelope shown rfl
  obtain ⟨w, at_, rfl, -⟩ := moves.deleting_of_deleted (same ▸ shown)
  obtain ⟨e', at', called, given⟩ := steps.deleted w answer rfl
  obtain rfl : e = e' := by
    rw [at_] at at'
    cases at'
    rfl
  exact ⟨sub, run, w, hs, hk, at_, (call?_move hs hk m).trans called, given⟩

/-! ### Punctual histories -/

namespace Undisturbed

/-- An envelope in the hand of a worker has not been settled. -/
theorem unsettled (h : Undisturbed consumers history sys) {sub : Subscriber} {run : Run} {w : Nat}
    {state : Worker} (hs : sys.subscribers[s]? = some sub) (hk : sub.runs[k]? = some run)
    (at_ : run.pipeline.workers[w]? = some state) (held : state.envelope? = some e) :
    settlings s k e history = [] := by
  obtain ⟨t, tracked, events_eq⟩ := h.reached.follows.tracked s sub k run hs hk
  obtain ⟨d, hw, carried⟩ := tracked.matches.carried at_ (Worker.isBusy_of_envelope held)
  have hd : d ∈ t.deliveries := Track.mem_deliveries_of_worker hw
  obtain ⟨accepted, -, open_⟩ := carried.of_envelope held
  refine List.eq_nil_iff_forall_not_mem.2 fun t' settled => ?_
  have mem := mem_untimed.2 ⟨t', mem_settlings.1 settled⟩
  have shown := (h.reached.event_of_receipt tracked events_eq hd mem rfl
    (Envelope.ofReceived_eq_ok accepted).2.1).2.2
  exact (open_ e).1 shown

/-- The message of an envelope in the hand of a worker is in its queue under the receipt that the
worker has, and hidden. -/
theorem holds (h : Undisturbed consumers history sys)
    (punctual : Punctual consumers history sys.now) {sub : Subscriber} {run : Run} {w : Nat}
    {state : Worker} (hs : sys.subscribers[s]? = some sub) (hk : sub.runs[k]? = some run)
    (at_ : run.pipeline.workers[w]? = some state) (held : state.envelope? = some e) :
    ∃ m ∈ sys.broker.messages sub.consumer.queue.url, m.id = e.id ∧ m.receipt = some e.receipt ∧
      sys.now < m.visibleAt := by
  have reached := h.reached
  obtain ⟨t, tracked, events_eq⟩ := reached.follows.tracked s sub k run hs hk
  obtain ⟨d, hw, carried⟩ := tracked.matches.carried at_ (Worker.isBusy_of_envelope held)
  have hd : d ∈ t.deliveries := Track.mem_deliveries_of_worker hw
  obtain ⟨accepted, read, open_⟩ := carried.of_envelope held
  obtain ⟨id_eq, receipt_eq, -⟩ := Envelope.ofReceived_eq_ok accepted
  obtain ⟨l, leased, rfl, rfl, delivery⟩ := exists_lease (reached.consumer hs)
    (mem_receivedIn tracked events_eq (tracked.mem_received hd))
  have decoded : e ∈ decodings l.s l.k history := by
    refine mem_decodings.2 (mem_untimed.1 (mem_eventsOf.1 ?_))
    rw [← events_eq]
    exact tracked.mem_events hd read
  have valid : sys.now < l.expiry := by
    rcases punctual l leased e decoded (delivery ▸ receipt_eq) with ⟨t', settled, -⟩ | ⟨-, valid⟩
    · rw [h.unsettled hs hk at_ held] at settled
      cases settled
    · exact valid
  obtain ⟨c, there, kept⟩ := h.leased l leased valid
  rw [delivery] at kept
  obtain rfl : c = sub.consumer := Option.some.inj (there.symm.trans (reached.consumer hs))
  rcases kept with ⟨m, inside, own, bears, until_⟩ | removed
  · exact ⟨m, inside, own.trans id_eq.symm, bears.trans (congrArg some receipt_eq.symm),
      until_ ▸ valid⟩
  · -- A removal with this receipt would be an answer to this delivery.
    obtain ⟨before, after, split⟩ := List.append_of_mem (mem_incidentsOf.1 removed)
    have rightful := (split ▸ reached).rightful
    obtain ⟨-, s', k', c', e', rest, -, -, told, -, same, -⟩ := rightful
    have mem : .event s' k' (.deleted e' (.ok ())) ∈ untimed history := by
      rw [split, told]
      simp
    have shown := (reached.event_of_receipt tracked events_eq hd mem rfl same).2.2
    exact absurd shown ((open_ e').2 _)

/-- A delete call for an envelope in the hand of a worker removes the message. -/
theorem delete_held (h : Undisturbed consumers history sys)
    (punctual : Punctual consumers history sys.now) {sub : Subscriber} {run : Run} {w : Nat}
    {state : Worker} (hs : sys.subscribers[s]? = some sub) (hk : sub.runs[k]? = some run)
    (at_ : run.pipeline.workers[w]? = some state) (held : state.envelope? = some e) :
    (sys.broker.delete sub.consumer.queue e.receipt).1 = .ok () ∧
      sys.broker.incidents sys.now (.delete sub.consumer.queue e.receipt) =
        [.removed sub.consumer.queue.url e.receipt e.id] := by
  obtain ⟨m, mem, own, bears, -⟩ := h.holds punctual hs hk at_ held
  have reached := h.reached.broker
  cases there : sys.broker.queue? sub.consumer.queue.url with
  | none =>
    rw [Broker.messages, there] at mem
    exact absurd mem List.not_mem_nil
  | some queue =>
    rw [Broker.messages_of_queue there] at mem
    obtain ⟨before, after, split⟩ := List.append_of_mem mem
    have agrees := reached.changes.ledger.agrees _ _ (Broker.shelves_of_queue there)
    have latest := (agrees.receipt m mem).symm.trans bears
    obtain ⟨deleted, removed⟩ := reached.delete_current there h.unspent split latest sys.now
    exact ⟨congrArg Prod.fst deleted, own ▸ removed⟩

/-- The history before an entry is punctual, with the step that made the entry. -/
theorem split_punctual {before after : List (Nat × Occurrence)} {t : Nat} {o : Occurrence}
    (h : Undisturbed consumers (before ++ (t, o) :: after) sys)
    (punctual : Punctual consumers (before ++ (t, o) :: after) sys.now) :
    ∃ past sys₀ a sys₁ events first last, Undisturbed consumers past sys₀ ∧
      Punctual consumers past sys₀.now ∧ sys₀.step a = some (sys₁, events) ∧
      sys₀.occurrences a events = first ++ o :: last ∧
      before = past ++ first.map (sys₀.now, ·) := by
  obtain ⟨past, sys₀, a, sys₁, events, first, last, made, hx, occ, rfl, rfl, le, later⟩ := h.split
  rw [List.append_assoc] at punctual
  refine ⟨past, sys₀, a, sys₁, events, first, last, made, ?_, hx, occ, rfl⟩
  refine punctual.earlier le made.le_now fun x mem => ?_
  rcases List.mem_append.1 mem with mem | mem
  · obtain ⟨_, -, rfl⟩ := List.mem_map.1 mem
    exact Nat.le_refl _
  · rcases List.mem_cons.1 mem with rfl | mem
    · exact Nat.le_refl _
    · exact later x mem

theorem deleted_ok (h : Undisturbed consumers history sys)
    (punctual : Punctual consumers history sys.now) {t : Nat} {answer : Except QueueError Unit}
    (mem : (t, .event s k (.deleted e answer)) ∈ history) : answer = .ok () := by
  obtain ⟨before, after, rfl⟩ := List.append_of_mem mem
  obtain ⟨past, sys₀, a, sys₁, events, first, last, made, punctual₀, hx, occ, -⟩ :=
    h.split_punctual punctual
  have shown : .event s k (.deleted e answer) ∈ sys₀.occurrences a events := by simp [occ]
  obtain ⟨sub, run, w, hs, hk, at_, -, rfl⟩ := deleting_of_deleted hx shown
  exact (made.delete_held punctual₀ hs hk at_ rfl).1

/-- When a delete call has been answered, the message has been removed. -/
theorem removed_of_deleted (h : Undisturbed consumers history sys) :
    Punctual consumers history sys.now → ∀ {answer : Except QueueError Unit},
      .event s k (.deleted e answer) ∈ untimed history → ∃ c, consumers[s]? = some c ∧
        .incident (.removed c.queue.url e.receipt e.id) ∈ untimed history := by
  induction h with
  | start => exact fun _ _ mem => absurd mem List.not_mem_nil
  | @step history sys a sys' events h hx calm ih =>
    intro punctual answer mem
    have before : Punctual consumers history sys.now :=
      punctual.earlier (now_step hx) h.le_now fun x mem => by
        obtain ⟨_, -, rfl⟩ := List.mem_map.1 mem
        exact Nat.le_refl _
    rw [untimed_append, untimed_map, List.mem_append] at mem
    simp only [untimed_append, untimed_map, List.mem_append]
    rcases mem with mem | mem
    · obtain ⟨c, there, removed⟩ := ih before mem
      exact ⟨c, there, .inl removed⟩
    · obtain ⟨sub, run, w, hs, hk, at_, called, -⟩ := deleting_of_deleted hx mem
      have removed := (h.delete_held before hs hk at_ rfl).2
      refine ⟨sub.consumer, h.reached.consumer hs, .inr ?_⟩
      rw [occurrences, called, Broker.incidentsOfSome, Option.elim, removed]
      simp

/-- After its handler has ended well, a message has been removed, or a worker is about to delete
it. -/
theorem after_success (h : Undisturbed consumers history sys)
    (punctual : Punctual consumers history sys.now)
    (returned : .event s k (.returned e .ok) ∈ untimed history) :
    ∃ sub, sys.subscribers[s]? = some sub ∧
      (.incident (.removed sub.consumer.queue.url e.receipt e.id) ∈ untimed history ∨
        ∃ run, ∃ (w : Nat) (state : Worker), sub.runs[k]? = some run ∧
          run.pipeline.workers[w]? = some state ∧
          (state = .acknowledging e ∨ state = .deleting e)) := by
  obtain ⟨sub, run, hs, hk⟩ := h.reached.run_of_event returned
  refine ⟨sub, hs, ?_⟩
  obtain ⟨t, tracked, events_eq⟩ := h.reached.follows.tracked s sub k run hs hk
  have shown : .returned e .ok ∈ t.events := by
    rw [events_eq]
    exact mem_eventsOf.2 returned
  rcases tracked.after_success (h.running s k sub run hs hk) shown with
    ⟨w, state, at_, busy⟩ | ⟨answer, deleted⟩
  · exact .inr ⟨run, w, state, hk, at_, busy⟩
  · rw [events_eq] at deleted
    obtain ⟨c, there, removed⟩ := h.removed_of_deleted punctual (mem_eventsOf.1 deleted)
    obtain rfl : c = sub.consumer := Option.some.inj (there.symm.trans (h.reached.consumer hs))
    exact .inl removed

/-- A message whose handler has ended well is in no queue, or it is hidden there and under the
receipt of that success. -/
theorem hidden_after_success (h : Undisturbed consumers history sys)
    (punctual : Punctual consumers history sys.now)
    (returned : .event s k (.returned e .ok) ∈ untimed history) {url : String} {m : Stored}
    (mem : m ∈ sys.broker.messages url) (own : m.id = e.id) :
    sys.now < m.visibleAt ∧ m.receipt = some e.receipt := by
  obtain ⟨sub, hs, removed | ⟨run, w, state, hk, at_, busy⟩⟩ := h.after_success punctual returned
  · exact absurd (own ▸ mem_incidentsOf.2 removed) (h.reached.broker.not_removed_of_mem mem _)
  · have held : state.envelope? = some e := by rcases busy with rfl | rfl <;> rfl
    obtain ⟨m', mem', own', bears, hides⟩ := h.holds punctual hs hk at_ held
    obtain ⟨-, rfl⟩ := h.reached.broker.message_unique mem mem' (own.trans own'.symm)
    exact ⟨hides, bears⟩

/-- When a handler ends well, its worker has the message, which had not been removed before. -/
theorem split_returned {before after : List (Nat × Occurrence)} {t : Nat}
    (h : Undisturbed consumers (before ++ (t, .event s k (.returned e .ok)) :: after) sys)
    (punctual : Punctual consumers
      (before ++ (t, .event s k (.returned e .ok)) :: after) sys.now) :
    ∃ sys₀, Undisturbed consumers before sys₀ ∧ Punctual consumers before sys₀.now ∧
      ∃ sub run, ∃ w : Nat, sys₀.subscribers[s]? = some sub ∧ sub.runs[k]? = some run ∧
        run.pipeline.workers[w]? = some (.handling e (.finish .ok)) := by
  obtain ⟨past, sys₀, a, sys₁, events, first, last, made, punctual₀, hx, occ, rfl⟩ :=
    h.split_punctual punctual
  have shown : .event s k (.returned e .ok) ∈ sys₀.occurrences a events := by simp [occ]
  obtain ⟨only, sub, run, w, hs, hk, at_⟩ := handling_of_returned hx shown
  obtain rfl : first = [] := by
    rw [only] at occ
    rcases List.cons_eq_append_iff.1 occ with ⟨rfl, -⟩ | ⟨first', -, none_⟩
    · rfl
    · simp at none_
  refine ⟨sys₀, ?_, ?_, sub, run, w, hs, hk, at_⟩
  · rwa [List.map_nil, List.append_nil]
  · rwa [List.map_nil, List.append_nil]

/-- When a message is delivered, it is not hidden. What runs have done until then, they have done
before the step. -/
theorem split_delivered {before after : List (Nat × Occurrence)} {t : Nat} {url : String}
    {r : Received}
    (h : Undisturbed consumers (before ++ (t, .incident (.delivered url r)) :: after) sys)
    (punctual : Punctual consumers
      (before ++ (t, .incident (.delivered url r)) :: after) sys.now) :
    ∃ past sys₀, Undisturbed consumers past sys₀ ∧ Punctual consumers past sys₀.now ∧
      (∀ s k ev, .event s k ev ∈ untimed before → .event s k ev ∈ untimed past) ∧
      ∃ m ∈ sys₀.broker.messages url, m.id = r.id ∧ m.visibleAt ≤ sys₀.now := by
  obtain ⟨past, sys₀, a, sys₁, events, first, last, made, punctual₀, hx, occ, rfl⟩ :=
    h.split_punctual punctual
  refine ⟨past, sys₀, made, punctual₀, fun s k ev mem => ?_, ?_⟩
  · rw [untimed_append, untimed_map, List.mem_append] at mem
    rcases mem with mem | mem
    · exact mem
    · exfalso
      -- In a step, incidents come before events.
      rcases List.append_eq_append_iff.1 occ with ⟨mid, -, observed⟩ | ⟨mid, incidents, -⟩
      · have late : .incident (.delivered url r) ∈ a.observed events := by simp [observed]
        cases a with
        | move s' k' m =>
          obtain ⟨_, -, eq⟩ := List.mem_map.1 late
          cases eq
        | _ => exact absurd late List.not_mem_nil
      · have early : .event s k ev ∈ (sys₀.broker.incidentsOfSome sys₀.now
            (sys₀.call? a)).map Occurrence.incident := by simp [incidents, mem]
        obtain ⟨_, -, eq⟩ := List.mem_map.1 early
        cases eq
  · have mem : .delivered url r ∈ sys₀.broker.incidentsOfSome sys₀.now (sys₀.call? a) := by
      rw [← incidentsOf_occurrences sys₀ a events, mem_incidentsOf, occ]
      simp
    cases called : sys₀.call? a with
    | none =>
      rw [called] at mem
      exact absurd mem List.not_mem_nil
    | some call =>
      rw [called] at mem
      obtain ⟨q, o, batch, b', rfl, rfl, found, inside⟩ := Broker.delivered_mem_incidents mem
      exact Broker.visible_of_check found inside

/-- Handled successfully at most once when nothing times out. If every delivery that is decoded is
settled before its lease is over, no delete call fails. After a handler has ended well, no handler
ends well for the same message again, and the message is never delivered again; the message has been
removed, or the delivery is not settled yet and a worker is about to delete the message, which will
succeed. -/
theorem succeeds_once (h : Undisturbed consumers history sys)
    (punctual : Punctual consumers history sys.now) :
    (∀ t s k e answer, (t, .event s k (.deleted e answer)) ∈ history → answer = .ok ()) ∧
    ∀ before t s k e after, history = before ++ (t, .event s k (.returned e .ok)) :: after →
      (∀ t' s' k' e', (t', .event s' k' (.returned e' .ok)) ∈ after → e'.id ≠ e.id) ∧
      (∀ t' url r, (t', .incident (.delivered url r)) ∈ after → r.id ≠ e.id) ∧
      ∃ sub, sys.subscribers[s]? = some sub ∧
        ((∃ t', (t', .incident (.removed sub.consumer.queue.url e.receipt e.id)) ∈ after) ∨
          settlings s k e history = [] ∧
          (sys.broker.delete sub.consumer.queue e.receipt).1 = .ok () ∧
          ∃ run, ∃ (w : Nat) (state : Worker), sub.runs[k]? = some run ∧
            run.pipeline.workers[w]? = some state ∧
            (state = .acknowledging e ∨ state = .deleting e)) := by
  refine ⟨fun t s k e answer mem => h.deleted_ok punctual mem, ?_⟩
  rintro before t s k e after rfl
  have returned : .event s k (.returned e .ok) ∈
      untimed (before ++ (t, .event s k (.returned e .ok)) :: after) :=
    mem_untimed.2 ⟨t, by simp⟩
  refine ⟨fun t' s' k' e' mem same => ?_, fun t' url r mem same => ?_, ?_⟩
  · -- The worker of a second success would have the message under another receipt.
    obtain ⟨mid, rest, rfl⟩ := List.append_of_mem mem
    rw [← List.cons_append, ← List.append_assoc] at h punctual
    obtain ⟨sys₀, made, punctual₀, sub, run, w, hs, hk, at_⟩ := h.split_returned punctual
    have earlier : .event s k (.returned e .ok) ∈
        untimed (before ++ (t, .event s k (.returned e .ok)) :: mid) :=
      mem_untimed.2 ⟨t, by simp⟩
    obtain ⟨m, inside, own, bears, -⟩ := made.holds punctual₀ hs hk at_ rfl
    have bears' := (made.hidden_after_success punctual₀ earlier inside (own.trans same)).2
    have receipt : e.receipt = e'.receipt := Option.some.inj (bears'.symm.trans bears)
    obtain ⟨track, tracked, events_eq⟩ := made.reached.follows.tracked s' sub k' run hs hk
    obtain ⟨d, hw, carried⟩ := tracked.matches.carried at_ rfl
    have hd : d ∈ track.deliveries := Track.mem_deliveries_of_worker hw
    have receipt' := (Envelope.ofReceived_eq_ok carried.accepted).2.1
    have shown := (made.reached.event_of_receipt tracked events_eq hd earlier rfl
      (receipt.trans receipt')).2.2
    exact absurd (Delivery.Handled.returned_later carried shown) List.not_mem_nil
  · obtain ⟨mid, rest, rfl⟩ := List.append_of_mem mem
    rw [← List.cons_append, ← List.append_assoc] at h punctual
    obtain ⟨past, sys₀, made, punctual₀, kept, m, inside, own, shown⟩ :=
      h.split_delivered punctual
    have earlier : .event s k (.returned e .ok) ∈ untimed past :=
      kept s k _ (mem_untimed.2 ⟨t, by simp⟩)
    have hides := (made.hidden_after_success punctual₀ earlier inside (own.trans same)).1
    omega
  · obtain ⟨sub, hs, removed | ⟨run, w, state, hk, at_, busy⟩⟩ := h.after_success punctual returned
    · refine ⟨sub, hs, .inl ?_⟩
      obtain ⟨t', mem⟩ := mem_untimed.1 removed
      rcases List.mem_append.1 mem with mem | mem
      · obtain ⟨sys₀, made, punctual₀, sub', run, w, hs', hk, at_⟩ := h.split_returned punctual
        obtain ⟨m, inside, own, -⟩ := made.holds punctual₀ hs' hk at_ rfl
        have gone := mem_incidentsOf.2 (mem_untimed.2 ⟨t', mem⟩)
        exact absurd (own ▸ gone) (made.reached.broker.not_removed_of_mem inside _)
      · rcases List.mem_cons.1 mem with eq | mem
        · cases eq
        · exact ⟨t', mem⟩
    · have held : state.envelope? = some e := by rcases busy with rfl | rfl <;> rfl
      exact ⟨sub, hs, .inr ⟨h.unsettled hs hk at_ held, (h.delete_held punctual hs hk at_ held).1,
        run, w, state, hk, at_, busy⟩⟩

end Undisturbed

end Courier.System

/-! ### A message that is handled at the second attempt -/

namespace Courier

namespace Sample

/-- A consumer whose handler fails at the first delivery of a message. -/
def hesitant : Consumer where
  settings := { queue := counter.name, workers := 1 }
  registry := (∅ : Registry).add ⟨"Greeting", fun context _ =>
    .ok (.finish (if context.receiveCount = 1 then .failed "not yet" else .ok))⟩
  queue := window

/-- The moves of a run that receives a message and whose handler fails. -/
def attempt : List Move :=
  [.beginReceive, .look, .internal .push, .internal (.takeRaw 0), .internal (.decode 0),
    .internal (.offer 0), .internal (.takeDecoded 0), .internal (.start 0),
    .internal (.proceed 0)]

/-- A greeting is sent. One consumer fails, and another one accepts it when it is delivered
again. -/
def retry : List System.Action :=
  [.create counter, .send window { letter with group := none }, .start 0, .start 1] ++
    attempt.map (.move 0 0) ++ [.pass 30000] ++ turn.map (.move 1 0)

/-- Where these steps lead. -/
def retried : List (Nat × System.Occurrence) × System :=
  (System.replayCalm [] (.initial [hesitant, hesitant]) retry).get rfl

theorem retried_undisturbed : System.Undisturbed [hesitant, hesitant] retried.1 retried.2 :=
  System.Undisturbed.start.replay (Option.some_get _).symm

theorem retried_punctual : System.Punctual [hesitant, hesitant] retried.1 retried.2.now := by
  decide +kernel

end Sample

namespace System

/-- The second attempt is the last one, and the message is removed. -/
theorem Undisturbed.succeeds_once_of_retry :
    ∃ before e after, Sample.retried.1 = before ++ (30000, .event 1 0 (.returned e .ok)) :: after ∧
      (∃ t' url, (t', .incident (.removed url e.receipt e.id)) ∈ after) ∧
      ∀ t' url r, (t', .incident (.delivered url r)) ∈ after → r.id ≠ e.id := by
  have returned : (30000, .event 1 0 (.returned _ .ok)) ∈ Sample.retried.1 :=
    List.mem_of_getElem? (i := 14) rfl
  obtain ⟨before, after, split⟩ := List.append_of_mem returned
  obtain ⟨-, rule⟩ := Sample.retried_undisturbed.succeeds_once Sample.retried_punctual
  obtain ⟨-, never, sub, -, ⟨t', removed⟩ | ⟨open_, -⟩⟩ := rule _ _ _ _ _ _ split
  · exact ⟨before, _, after, split, ⟨t', _, removed⟩, never⟩
  · cases open_

end System

end Courier
