import Courier.Proofs.Broker.Replies

/-!
# What windows remember

A queue remembers a send under its deduplication identifier, so that a repetition can be answered
with the identifier of the message. Every window comes from a send with its key, and the identifier
in it was new then. So a key that no other send of a run has makes its message one of its own: the
message is stored, its identifier is that of no earlier send, and no later send is answered with it.

The clock does not matter here, and may even run backwards.

## Main definitions

* `Broker.Remembers`: a queue of the broker has a window.
* `Broker.Reserves`: an identifier has been given, and is remembered under one key only.

## Main results

* `Broker.remembers_after`: where windows come from.
* `Broker.sent_under_own_key`: what becomes of a send whose key no other send has.
-/

namespace Courier.Broker

/-- A queue of the broker remembers a send. -/
def Remembers (b : Broker) (w : Window) : Prop :=
  ∃ url queue, b.queue? url = some queue ∧ w ∈ queue.windows

variable {b : Broker} {now : Nat} {call : Call} {q : Identity} {m : Outbound} {w : Window}
  {key : String} {id : MessageId} {run : List (Nat × Call)} {log : List Incident}

/-! ### Where windows come from -/

theorem deduplication_of_deduplicationOf {queue : Queue} (h : queue.deduplicationOf m = some key) :
    m.deduplication = some key := by
  unfold Queue.deduplicationOf at h
  split at h
  · exact h
  · cases h

/-- A window of a queue in which a message has been stored is an old one or that of the message. -/
theorem mem_windows_store {queue : Queue} (h : w ∈ (queue.store now m id).windows) :
    w ∈ queue.windows ∨ m.deduplication = some w.key ∧ w.id = id := by
  simp only [Queue.store] at h
  split at h
  · next key dedup =>
    rcases List.mem_cons.1 h with rfl | old
    · exact .inr ⟨deduplication_of_deduplicationOf dedup, rfl⟩
    · exact .inl old
  · exact .inl h

/-- A window that is new after a call is that of a send, with a new identifier. -/
theorem remembers_after (h : (b.after now call).Remembers w) : b.Remembers w ∨
    ∃ q m, call = .send q m ∧ m.deduplication = some w.key ∧ w.id = b.mint.drawMessageId.1 := by
  obtain ⟨url, queue', there', mem⟩ := h
  by_cases send : ∃ q m, call = .send q m
  · obtain ⟨q, m, rfl⟩ := send
    simp only [after] at there'
    cases b.send_outcome now q m with
    | refused answer incidents lookup => exact .inl ⟨url, queue', lookup url ▸ there', mem⟩
    | repeated there old answer incidents lookup =>
      rw [lookup] at there'
      split at there'
      · cases there'
        exact .inl ⟨q.url, _, there, (Queue.mem_purge.1 mem).1⟩
      · exact .inl ⟨url, queue', there', mem⟩
    | stored there answer incidents lookup =>
      rw [lookup] at there'
      split at there'
      · cases there'
        rcases mem_windows_store mem with old | ⟨own, new⟩
        · exact .inl ⟨q.url, _, there, (Queue.mem_purge.1 old).1⟩
        · exact .inr ⟨q, m, rfl, own, new⟩
      · exact .inl ⟨url, queue', there', mem⟩
  · have keeps : KeepsWindows (b.queue? url) ((b.after now call).queue? url) :=
      .after fun q m same => send ⟨q, m, same⟩
    generalize before : b.queue? url = queue at keeps
    rw [there'] at keeps
    cases keeps with
    | built empty =>
      rw [empty] at mem
      exact absurd mem List.not_mem_nil
    | kept fifo windows => exact .inl ⟨url, _, before, windows ▸ mem⟩

theorem remembers_afterAll (h : (b.afterAll run).Remembers w) : b.Remembers w ∨
    ∃ t q m, (t, .send q m) ∈ run ∧ m.deduplication = some w.key := by
  induction run generalizing b with
  | nil => exact .inl h
  | cons c run ih =>
    obtain ⟨now, call⟩ := c
    rcases ih h with before | ⟨t, q, m, mem, own⟩
    · rcases remembers_after before with old | ⟨q, m, rfl, own, -⟩
      · exact .inl old
      · exact .inr ⟨now, q, m, List.mem_cons_self, own⟩
    · exact .inr ⟨t, q, m, List.mem_cons_of_mem _ mem, own⟩

/-! ### What sends are answered with -/

/-- A send that succeeds is answered from a window under its key, or stores its message under a new
identifier. -/
theorem window_or_new_of_sent (sent : (b.send now q m).1 = .ok id) :
    (∃ w, b.Remembers w ∧ m.deduplication = some w.key ∧ w.id = id) ∨
      id = b.mint.drawMessageId.1 ∧ ∀ url, (b.send now q m).2.messages url =
        if url = q.url then b.messages url ++ [m.toStored id now] else b.messages url := by
  by_cases passes : ∃ queue, b.Admits q m queue
  · obtain ⟨queue, admits⟩ := passes
    cases found : (queue.deduplicationOf m).bind (queue.purge now).window? with
    | some w =>
      obtain ⟨-, answer, -⟩ := send_repeated now admits found
      obtain ⟨key, dedup, found⟩ := Option.bind_eq_some_iff.1 found
      obtain ⟨mem, rfl⟩ := Queue.mem_of_window? found
      exact .inl ⟨w, ⟨q.url, queue, admits.there, (Queue.mem_purge.1 mem).1⟩,
        deduplication_of_deduplicationOf dedup, Except.ok.inj (answer.symm.trans sent)⟩
    | none =>
      obtain ⟨-, answer, grown, -⟩ := send_new now admits found
      obtain rfl := Except.ok.inj (answer.symm.trans sent)
      exact .inr ⟨rfl, grown⟩
  · obtain ⟨⟨e, failed⟩, -⟩ := send_refused now fun queue admits => passes ⟨queue, admits⟩
    cases failed.symm.trans sent

/-- A message that has a group is not refused for a group that is missing. -/
theorem send_ne_ungrouped (b : Broker) (now : Nat) (q : Identity) (grouped : m.group ≠ none) :
    (b.send now q m).1 ≠ .error (.validation (.required "message_group_id")) := by
  simp only [send]
  split
  · next spent =>
    obtain ⟨n, -, rfl, -⟩ := spendFault_eq_some spent
    simp
  · split
    · simp
    · split
      · simp [notFound]
      · split
        · next ungrouped => exact absurd ungrouped.2 grouped
        · simp

/-- Only sends are answered with identifiers. -/
theorem reply_eq_sent {answer : Except QueueError MessageId}
    (h : b.reply now call = .sent answer) :
    ∃ q m, call = .send q m ∧ (b.send now q m).1 = answer := by
  cases call with
  | send q m => exact ⟨q, m, rfl, Reply.sent.inj h⟩
  | _ => cases h

theorem Reached.text_of_remembers (h : Reached log b) (remembered : b.Remembers w) :
    w.id.text ∈ log.filterMap Incident.text? := by
  obtain ⟨url, queue, there, mem⟩ := remembered
  obtain ⟨s, stored, same⟩ := List.mem_map.1 (h.windowsStored url queue there w mem)
  exact same ▸ Ledger.mem_texts_of_stored stored

/-- Whatever a send is answered with has been stored, by it or before. -/
theorem Reached.text_of_sent (h : Reached log b) (sent : (b.send now q m).1 = .ok id) :
    id.text ∈ (log ++ b.incidents now (.send q m)).filterMap Incident.text? := by
  cases b.send_outcome now q m with
  | refused answer => cases answer.symm.trans sent
  | @repeated queue w there old answer incidents =>
    obtain rfl := Except.ok.inj (answer.symm.trans sent)
    rw [incidents, List.append_nil]
    exact h.text_of_remembers ⟨q.url, queue, there, old⟩
  | @stored queue there answer incidents =>
    obtain rfl := Except.ok.inj (answer.symm.trans sent)
    rw [incidents]
    exact List.mem_filterMap.2 ⟨_, List.mem_append_right _ (List.mem_singleton_self _), rfl⟩

/-- A run leads from a history to a longer one, which has the answers of all sends. -/
theorem Reached.afterAll (h : Reached log b) (run : List (Nat × Call)) :
    ∃ new, Reached (log ++ new) (b.afterAll run) ∧
      ∀ x ∈ b.transcript run, ∀ id, x.reply = .sent (.ok id) →
        id.text ∈ (log ++ new).filterMap Incident.text? := by
  induction run generalizing log b with
  | nil => exact ⟨[], (List.append_nil log).symm ▸ h, List.forall_mem_nil _⟩
  | cons c run ih =>
    obtain ⟨now, call⟩ := c
    obtain ⟨new, reached, answers⟩ := ih (h.call now call)
    rw [List.append_assoc] at reached answers
    refine ⟨_, reached, fun x mem id answer => ?_⟩
    rcases List.mem_cons.1 mem with rfl | later
    · obtain ⟨q, m, rfl, sent⟩ := reply_eq_sent answer
      have text := h.text_of_sent sent
      rw [← List.append_assoc, List.filterMap_append]
      exact List.mem_append_left _ text
    · exact answers x later id answer

/-! ### Keys of one send only -/

/-- An identifier has been given, and is remembered under one key only. -/
structure Reserves (b : Broker) (key : String) (id : MessageId) : Prop where
  given : ∃ log, Reached log b ∧ id.text ∈ log.filterMap Incident.text?
  own : ∀ w, b.Remembers w → w.id = id → w.key = key

namespace Reserves

/-- What has been given is not new. -/
theorem ne_new (h : b.Reserves key id) : b.mint.drawMessageId.1 ≠ id := by
  obtain ⟨log, reached, given⟩ := h.given
  rintro rfl
  exact reached.changes.ledger.fresh given

theorem after (h : b.Reserves key id) (now : Nat) (call : Call) :
    (b.after now call).Reserves key id where
  given := by
    obtain ⟨log, reached, given⟩ := h.given
    refine ⟨_, reached.call now call, ?_⟩
    rw [List.filterMap_append]
    exact List.mem_append_left _ given
  own w remembered same := by
    rcases remembers_after remembered with old | ⟨q, m, -, -, new⟩
    · exact h.own w old same
    · exact absurd (new.symm.trans same) h.ne_new

theorem answer_ne (h : b.Reserves key id) (other : m.deduplication ≠ some key) :
    (b.send now q m).1 ≠ .ok id := by
  intro sent
  rcases window_or_new_of_sent sent with ⟨w, remembered, dedup, same⟩ | ⟨new, -⟩
  · exact other (h.own w remembered same ▸ dedup)
  · exact h.ne_new new.symm

/-- In no run in which all sends have other keys is one of them answered with the identifier. -/
theorem reply_ne (h : b.Reserves key id)
    (others : ∀ t q m, (t, .send q m) ∈ run → m.deduplication ≠ some key) :
    ∀ x ∈ b.transcript run, x.reply ≠ .sent (.ok id) := by
  induction run generalizing b with
  | nil => exact List.forall_mem_nil _
  | cons c run ih =>
    obtain ⟨now, call⟩ := c
    intro x mem answer
    rcases List.mem_cons.1 mem with rfl | later
    · obtain ⟨q, m, rfl, sent⟩ := reply_eq_sent answer
      exact h.answer_ne (others now q m List.mem_cons_self) sent
    · exact ih (h.after now call) (fun t q m mem => others t q m (List.mem_cons_of_mem _ mem)) x
        later answer

end Reserves

/-- A send whose key no other send of a run has stores its message, with an identifier with which no
other send is answered, before or after it. -/
theorem sent_under_own_key {before behind : List (Nat × Call)}
    (own : m.deduplication = some key)
    (others : ∀ t q m, (t, .send q m) ∈ before ++ behind → m.deduplication ≠ some key)
    (sent : ((({} : Broker).afterAll before).send now q m).1 = .ok id) :
    let b := ({} : Broker).afterAll before
    (∀ url, (b.send now q m).2.messages url =
      if url = q.url then b.messages url ++ [m.toStored id now] else b.messages url) ∧
    (∀ x ∈ ({} : Broker).transcript before, x.reply ≠ .sent (.ok id)) ∧
    ∀ x ∈ (b.send now q m).2.transcript behind, x.reply ≠ .sent (.ok id) := by
  obtain ⟨log, reached, answers⟩ := Reached.start.afterAll before
  generalize started : ({} : Broker).afterAll before = b at sent reached answers
  have unheard (w : Window) (remembered : b.Remembers w) : w.key ≠ key := by
    rw [← started] at remembered
    rcases remembers_afterAll remembered with ⟨url, queue, there, -⟩ | ⟨t, q, m, mem, dedup⟩
    · nomatch there
    · rintro rfl
      exact others t q m (List.mem_append_left _ mem) dedup
  rcases window_or_new_of_sent sent with ⟨w, remembered, dedup, -⟩ | ⟨rfl, grown⟩
  · exact absurd (Option.some.inj (dedup.symm.trans own)) (unheard w remembered)
  · have fresh := reached.changes.ledger.fresh
    have reserves : (b.after now (.send q m)).Reserves key b.mint.drawMessageId.1 := by
      refine ⟨⟨_, reached.call now (.send q m), reached.text_of_sent sent⟩, ?_⟩
      intro w remembered same
      rcases remembers_after remembered with old | ⟨q', m', call, dedup, -⟩
      · have given := reached.text_of_remembers old
        rw [same] at given
        exact absurd given fresh
      · cases call
        exact Option.some.inj (dedup.symm.trans own)
    exact ⟨grown, fun x mem answer => fresh (answers x mem _ answer),
      reserves.reply_ne fun t q m mem => others t q m (List.mem_append_right _ mem)⟩

end Courier.Broker
