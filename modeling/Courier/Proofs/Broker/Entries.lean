import Courier.Proofs.Broker.Ledger

/-!
# The entries of a ledger

What an entry of the log tells about the entries before it. A removal is made with the receipt of
the latest delivery, and a delivery from a queue that keeps its messages in order comes only when
every earlier message of its group has been removed.

## Main results

* `Stock.Changes.split`: the history before an entry, the change that made it, and the rest.
* `Stock.Changes.removed_current`: a removal bears the receipt of the latest delivery.
* `Stock.Changes.delivered_as_stored`: a delivery has the content of its message.
* `Stock.Changes.delivered_in_turn`: what was removed when a message is delivered.
-/

namespace Courier

namespace Stock

variable {s s' : Stock} {log : List Incident}

theorem Change.eq_nil_or_singleton {new : List Incident} (h : s.Change new s') :
    new = [] ∨ ∃ i, new = [i] := by
  cases h with
  | draw | build | count => exact .inl rfl
  | store | deliver | remove => exact .inr ⟨_, rfl⟩

/-- The history before an entry of the log, the change that made the entry, and the rest. -/
theorem Changes.split {before after : List Incident} {i : Incident}
    (h : Changes s (before ++ i :: after) s') :
    ∃ s₀ s₁, Changes s before s₀ ∧ s₀.Change [i] s₁ ∧ Changes s₁ after s' := by
  generalize eq : before ++ i :: after = log at h
  induction h generalizing after with
  | refl => simp at eq
  | @step log s₁ new s₂ h hc ih =>
    rcases hc.eq_nil_or_singleton with rfl | ⟨j, rfl⟩
    · obtain ⟨a, b, made, change, rest⟩ := ih (eq.trans (List.append_nil _))
      have rest := rest.step hc
      rw [List.append_nil] at rest
      exact ⟨a, b, made, change, rest⟩
    · rcases List.eq_nil_or_concat after with rfl | ⟨after, k, rfl⟩
      · obtain ⟨rfl, last⟩ := List.append_inj' eq rfl
        cases last
        exact ⟨s₁, s₂, h, hc, .refl⟩
      · rw [List.concat_eq_append, ← List.cons_append, ← List.append_assoc] at eq
        obtain ⟨rfl, last⟩ := List.append_inj' eq rfl
        cases last
        obtain ⟨a, b, made, change, rest⟩ := ih rfl
        rw [List.concat_eq_append]
        exact ⟨a, b, made, change, rest.step hc⟩

/-- A queue stays, and keeps its messages in order or does not. -/
theorem Changes.fifo {url : String} {shelf : Shelf} (h : Changes s log s')
    (there : s.shelves url = some shelf) :
    ∃ messages, s'.shelves url = some ⟨shelf.fifo, messages⟩ := by
  induction h with
  | refl => exact ⟨shelf.messages, there⟩
  | step h hc ih =>
    obtain ⟨messages, there⟩ := ih
    have set_ (url' : String) (fifo : Bool) (ms ms' : List Stored) {s : Stock}
        (there : s.shelves url = some ⟨shelf.fifo, messages⟩)
        (at_ : s.shelves url' = some ⟨fifo, ms⟩) :
        ∃ messages, (s.set url' ⟨fifo, ms'⟩).shelves url = some ⟨shelf.fifo, messages⟩ := by
      by_cases same : url = url'
      · subst same
        obtain ⟨rfl, -⟩ : shelf.fifo = fifo ∧ messages = ms := by simpa [there] using at_
        exact ⟨ms', set_shelves_self ..⟩
      · exact ⟨messages, (set_shelves_of_ne _ same _).trans there⟩
    cases hc with
    | draw => exact ⟨messages, there⟩
    | build free fifo =>
      refine ⟨messages, (set_shelves_of_ne _ ?_ _).trans there⟩
      rintro rfl
      simp [free] at there
    | store at_ | deliver visibleAt at_ | count at_ | remove at_ => exact set_ _ _ _ _ there at_

/-- A removal bears the receipt of the latest delivery of its message, which was stored and has not
been removed before. -/
theorem Changes.removed_current {before after : List Incident} {url : String} {receipt : Receipt}
    {id : MessageId} (h : Changes {} (before ++ .removed url receipt id :: after) s) :
    latestReceipt url id before = some receipt ∧ id ∉ removedAt url before ∧
      ∃ m ∈ storedAt url before, m.id = id := by
  obtain ⟨s₀, s₁, made, change, -⟩ := h.split
  cases change with
  | @remove _ fifo ms m ms' _ there current =>
    have own : m ∈ ms ++ m :: ms' := by simp
    obtain ⟨kept, m₀, stored, same⟩ := made.ledger.exists_present there own
    refine ⟨?_, kept, m₀, stored, Stored.id_eq_of_asSent same⟩
    rw [← (made.ledger.agrees url _ there).receipt m own, current]

/-- A delivery has the content with which its message was stored. -/
theorem Changes.delivered_as_stored {url : String} {r : Received} (h : Changes {} log s)
    (delivered : r ∈ deliveredAt url log) :
    ∃ m ∈ storedAt url log, m.id = r.id ∧ m.body = r.body ∧ m.attributes = r.attributes := by
  obtain ⟨before, after, rfl⟩ := List.append_of_mem (mem_deliveredAt.1 delivered)
  obtain ⟨s₀, s₁, made, change, -⟩ := h.split
  cases change with
  | @deliver _ fifo ms m ms' visibleAt there turn =>
    obtain ⟨-, m₀, stored, same⟩ := made.ledger.exists_present there (m := m) (by simp)
    refine ⟨m₀, ?_, Stored.id_eq_of_asSent same, ?_⟩
    · rw [storedAt_append]
      exact List.mem_append_left _ stored
    · obtain ⟨-, body, attributes, -⟩ := Stored.mk.inj same
      exact ⟨body, attributes⟩

end Stock

/-- The messages before one of a queue are those that were stored before it and are present. -/
theorem Ledger.ids_before {log : List Incident} {s : Stock} (h : Ledger log s) {url : String}
    {fifo : Bool} {before after earlier later : List Stored} {m m₀ : Stored}
    (there : s.shelves url = some ⟨fifo, before ++ m :: after⟩)
    (split : storedAt url log = earlier ++ m₀ :: later) (kept : m₀.id ∉ removedAt url log)
    (same : m₀.id = m.id) :
    before.map (·.id) = (earlier.filter (·.id ∉ removedAt url log)).map (·.id) := by
  have ids := h.ids_eq there
  have present : presentAt url log = earlier.filter (·.id ∉ removedAt url log) ++
      m₀ :: later.filter (·.id ∉ removedAt url log) := by
    simp [presentAt, split, kept]
  have apart : ∀ m' ∈ before ++ after, m'.id ≠ m.id := h.id_ne there
  have other {ms : List Stored} (part : ms ⊆ before ++ after) : m.id ∉ ms.map (·.id) := by
    intro mem
    obtain ⟨m', hm', eq⟩ := List.mem_map.1 mem
    exact apart m' (part hm') eq
  simp only [present, List.map_append, List.map_cons, same] at ids
  exact ((List.append_cons_inj_of_notMem (other (List.subset_append_left ..))
    (other (List.subset_append_right ..))).1 ids).1

namespace Stock

variable {s : Stock}

/-- A message that is delivered was stored and has not been removed. If the queue keeps its messages
in order, those of its group that were stored before it have been removed. -/
theorem Changes.delivered_in_turn {before after : List Incident} {url : String} {r : Received}
    (h : Changes {} (before ++ .delivered url r :: after) s) :
    ∃ earlier m later, storedAt url before = earlier ++ m :: later ∧ m.id = r.id ∧
      m.id ∉ removedAt url before ∧
      ∀ messages, s.shelves url = some ⟨true, messages⟩ → ∀ g, m.group = some g →
        ∀ m' ∈ earlier, m'.group = some g → m'.id ∈ removedAt url before := by
  obtain ⟨s₀, s₁, made, change, rest⟩ := h.split
  cases change with
  | @deliver _ fifo ms m ms' visibleAt there turn =>
    have ledger := made.ledger
    obtain ⟨kept, m₀, stored, same⟩ := ledger.exists_present there (m := m) (by simp)
    have id_eq : m₀.id = m.id := Stored.id_eq_of_asSent same
    obtain ⟨earlier, later, split⟩ := List.append_of_mem stored
    refine ⟨earlier, m₀, later, split, id_eq, id_eq ▸ kept, ?_⟩
    intro messages final g group m' hm' group'
    by_contra kept'
    obtain ⟨_, stays⟩ := rest.fifo (set_shelves_self ..)
    have inOrder : fifo = true := by
      rw [stays] at final
      exact congrArg Shelf.fifo (Option.some.inj final)
    have ids := ledger.ids_before there split (id_eq ▸ kept) id_eq
    have mem : m'.id ∈ ms.map (·.id) :=
      ids ▸ List.mem_map_of_mem (List.mem_filter.2 ⟨hm', decide_eq_true kept'⟩)
    obtain ⟨x, hx, xid⟩ := List.mem_map.1 mem
    obtain ⟨-, x₀, stored', same'⟩ := ledger.exists_present there (List.mem_append_left _ hx)
    have storedBefore : m' ∈ storedAt url before := split ▸ List.mem_append_left _ hm'
    have eq : x₀ = m' := (ledger.stored_unique stored' storedBefore
      ((Stored.id_eq_of_asSent same').trans xid)).2
    have xgroup : x.group = some g := (Stored.group_eq_of_asSent same').symm.trans (eq ▸ group')
    exact turn inOrder g ((Stored.group_eq_of_asSent same).symm.trans group) x hx xgroup

end Stock

end Courier
