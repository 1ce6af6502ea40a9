import Courier.Proofs.Broker.Stock
import Courier.Proofs.Mint
import Mathlib.Data.List.Nodup

/-!
# The ledger of a broker

The log of what has happened to messages is a ledger of the queues: a queue holds exactly the
messages that were stored and not removed, in the order in which they were sent, and each of them
bears the receipt of its latest delivery. Identifiers and receipts are never given twice, so an
entry of the ledger names one message and one delivery.

## Main definitions

* `Stored.asSent`: a message without what deliveries change.
* `Shelf.Agrees`: a queue is what the log says.
* `Ledger`: the log is a ledger of the stock.

## Main results

* `Stock.Changes.ledger`: the log of a history is a ledger.
-/

namespace Courier

/-- A message without what deliveries change. -/
def Stored.asSent (m : Stored) : Stored :=
  { m with receiveCount := 0, visibleAt := 0, receipt := none }

theorem Stored.id_eq_of_asSent {m m' : Stored} (h : m.asSent = m'.asSent) : m.id = m'.id := by
  show m.asSent.id = m'.asSent.id
  rw [h]

theorem Stored.group_eq_of_asSent {m m' : Stored} (h : m.asSent = m'.asSent) :
    m.group = m'.group := by
  show m.asSent.group = m'.asSent.group
  rw [h]

theorem Stored.asSent_delivered (m : Stored) (receipt : Receipt) (visibleAt : Nat) :
    (m.delivered receipt visibleAt).asSent = m.asSent := rfl

/-- The messages that were stored in the queue at an address and have not been removed. -/
def presentAt (url : String) (log : List Incident) : List Stored :=
  (storedAt url log).filter (·.id ∉ removedAt url log)

theorem presentAt_removed (url : String) (log : List Incident) (receipt : Receipt)
    (id : MessageId) : presentAt url (log ++ [.removed url receipt id]) =
      (presentAt url log).filter (·.id ≠ id) := by
  simp [presentAt, List.filter_filter, not_or, Bool.and_comm]

/-- The messages of a queue are those that the log says. -/
structure Shelf.Agrees (url : String) (log : List Incident) (shelf : Shelf) : Prop where
  present : shelf.messages.map Stored.asSent = (presentAt url log).map Stored.asSent
  receipt : ∀ m ∈ shelf.messages, m.receipt = latestReceipt url m.id log

/-- The log is a ledger of the stock. -/
structure Ledger (log : List Incident) (s : Stock) : Prop where
  /-- Identifiers and receipts come from the mint. -/
  minted : ∀ text ∈ log.filterMap Incident.text?, ∃ n < s.next, text = Mint.text n
  distinct : (log.filterMap Incident.text?).Nodup
  empty : ∀ url, s.shelves url = none → storedAt url log = []
  agrees : ∀ url shelf, s.shelves url = some shelf → shelf.Agrees url log
  /-- Only messages that were stored are delivered or removed. -/
  origin : ∀ url, ∀ r ∈ deliveredAt url log, ∃ m ∈ storedAt url log, m.id = r.id
  gone : ∀ url, ∀ id ∈ removedAt url log, ∃ m ∈ storedAt url log, m.id = id
  /-- A message is removed once. -/
  once : ∀ url, (removedAt url log).Nodup

/-! ### What the ledger says about identifiers -/

private theorem eq_of_nodup_filterMap {α β : Type} {f : α → Option β} {xs : List α}
    (h : (xs.filterMap f).Nodup) {x y : α} (hx : x ∈ xs) (hy : y ∈ xs) {t : β}
    (fx : f x = some t) (fy : f y = some t) : x = y := by
  induction xs with
  | nil => nomatch hx
  | cons a xs ih =>
    have tail : (xs.filterMap f).Nodup :=
      h.sublist ((List.sublist_cons_self a xs).filterMap f)
    have apart {z : α} (hz : z ∈ xs) (fz : f z = some t) (fa : f a = some t) : False := by
      rw [List.filterMap_cons_some fa] at h
      exact (List.nodup_cons.1 h).1 (List.mem_filterMap.2 ⟨z, hz, fz⟩)
    rcases List.mem_cons.1 hx with rfl | inx
    · rcases List.mem_cons.1 hy with rfl | iny
      · rfl
      · exact (apart iny fy fx).elim
    · rcases List.mem_cons.1 hy with rfl | iny
      · exact (apart inx fx fy).elim
      · exact ih tail inx iny

namespace Ledger

variable {log : List Incident} {s : Stock}

theorem stored_unique (h : Ledger log s) {url url' : String} {m m' : Stored}
    (hm : m ∈ storedAt url log) (hm' : m' ∈ storedAt url' log) (same : m.id = m'.id) :
    url = url' ∧ m = m' := by
  have eq := eq_of_nodup_filterMap h.distinct (mem_storedAt.1 hm) (mem_storedAt.1 hm')
    (t := m'.id.text) (by rw [← same]; rfl) rfl
  cases eq
  exact ⟨rfl, rfl⟩

theorem delivered_unique (h : Ledger log s) {url url' : String} {r r' : Received}
    (hr : r ∈ deliveredAt url log) (hr' : r' ∈ deliveredAt url' log)
    (same : r.receipt = r'.receipt) : url = url' ∧ r = r' := by
  have eq := eq_of_nodup_filterMap h.distinct (mem_deliveredAt.1 hr) (mem_deliveredAt.1 hr')
    (t := r'.receipt.text) (by rw [← same]; rfl) rfl
  cases eq
  exact ⟨rfl, rfl⟩

private theorem texts_sublist (url : String) (log : List Incident) :
    ((storedAt url log).map (·.id.text)).Sublist (log.filterMap Incident.text?) := by
  induction log with
  | nil => exact .slnil
  | cons i log ih =>
    cases i with
    | stored url' m =>
      by_cases here : url' = url
      · simpa [storedAt, Incident.stored?, Incident.text?, here] using ih
      · simpa [storedAt, Incident.stored?, Incident.text?, here] using ih.cons _
    | delivered url' r => exact ih.cons _
    | removed url' receipt id => exact ih

/-- The messages of a queue have different identifiers. -/
theorem ids_nodup (h : Ledger log s) (url : String) :
    ((storedAt url log).map (·.id)).Nodup := by
  have texts : (((storedAt url log).map (·.id)).map (·.text)).Nodup := by
    simpa [Function.comp_def] using h.distinct.sublist (texts_sublist url log)
  exact List.Nodup.of_map _ texts

theorem fresh (h : Ledger log s) : Mint.text s.next ∉ log.filterMap Incident.text? := by
  intro mem
  obtain ⟨n, lt, eq⟩ := h.minted _ mem
  exact absurd (Mint.text_injective eq) (Nat.ne_of_gt lt)

theorem mem_texts_of_stored {url : String} {m : Stored} (hm : m ∈ storedAt url log) :
    m.id.text ∈ log.filterMap Incident.text? :=
  List.mem_filterMap.2 ⟨_, mem_storedAt.1 hm, rfl⟩

variable {url : String} {shelf : Shelf}

/-- A message of a queue was stored there and has not been removed. -/
theorem exists_present (h : Ledger log s) (there : s.shelves url = some shelf) {m : Stored}
    (hm : m ∈ shelf.messages) :
    m.id ∉ removedAt url log ∧ ∃ m₀ ∈ storedAt url log, m₀.asSent = m.asSent := by
  have mem : m.asSent ∈ (presentAt url log).map Stored.asSent :=
    (h.agrees url shelf there).present ▸ List.mem_map_of_mem hm
  obtain ⟨m₀, present, same⟩ := List.mem_map.1 mem
  obtain ⟨stored, kept⟩ := List.mem_filter.1 present
  have id_eq : m₀.id = m.id := Stored.id_eq_of_asSent same
  exact ⟨id_eq ▸ of_decide_eq_true kept, m₀, stored, same⟩

/-- A message that was stored and not removed is in the queue. -/
theorem exists_message (h : Ledger log s) (there : s.shelves url = some shelf) {m₀ : Stored}
    (stored : m₀ ∈ storedAt url log) (kept : m₀.id ∉ removedAt url log) :
    ∃ m ∈ shelf.messages, m.asSent = m₀.asSent := by
  have present : m₀ ∈ presentAt url log := List.mem_filter.2 ⟨stored, decide_eq_true kept⟩
  have mem : m₀.asSent ∈ shelf.messages.map Stored.asSent :=
    (h.agrees url shelf there).present ▸ List.mem_map_of_mem present
  exact List.mem_map.1 mem

theorem ids_eq (h : Ledger log s) (there : s.shelves url = some shelf) :
    shelf.messages.map (·.id) = (presentAt url log).map (·.id) := by
  have present := congrArg (List.map Stored.id) (h.agrees url shelf there).present
  rwa [List.map_map, List.map_map] at present

/-- The messages in a queue have different identifiers. -/
theorem shelf_nodup (h : Ledger log s) (there : s.shelves url = some shelf) :
    (shelf.messages.map (·.id)).Nodup := by
  rw [h.ids_eq there]
  exact (h.ids_nodup url).sublist (List.filter_sublist.map _)

end Ledger

/-! ### Elementary changes keep the ledger -/

/-- Nothing happens to the queue at an address. -/
structure Spares (url : String) (new : List Incident) : Prop where
  stored : storedAt url new = []
  delivered : deliveredAt url new = []
  removed : removedAt url new = []

theorem spares_nil (url : String) : Spares url [] :=
  ⟨rfl, rfl, rfl⟩

theorem spares_stored {url other : String} (h : url ≠ other) (m : Stored) :
    Spares other [.stored url m] := by
  constructor <;> simp [h]

theorem spares_delivered {url other : String} (h : url ≠ other) (r : Received) :
    Spares other [.delivered url r] := by
  constructor <;> simp [h]

theorem spares_removed {url other : String} (h : url ≠ other) (receipt : Receipt)
    (id : MessageId) : Spares other [.removed url receipt id] := by
  constructor <;> simp [h]

/-- A queue to which nothing happens stays what the log says. -/
theorem Shelf.Agrees.spare {url : String} {log new : List Incident} {shelf : Shelf}
    (h : shelf.Agrees url log) (hs : Spares url new) : shelf.Agrees url (log ++ new) where
  present := by simpa [presentAt, hs.stored, hs.removed] using h.present
  receipt m hm := by simpa [latestReceipt, hs.delivered] using h.receipt m hm

namespace Ledger

variable {log : List Incident} {s : Stock} {url : String}

/-- The queues after a change of one of them are what the log says. -/
private theorem agrees_set (h : Ledger log s) {shelf : Shelf} {new : List Incident}
    (changed : shelf.Agrees url (log ++ new)) (others : ∀ other, url ≠ other → Spares other new) :
    ∀ other shelf', (s.set url shelf).shelves other = some shelf' →
      shelf'.Agrees other (log ++ new) := by
  intro other shelf' there
  by_cases same : other = url
  · subst same
    rw [Stock.set_shelves_self] at there
    cases there
    exact changed
  · rw [Stock.set_shelves_of_ne s same] at there
    exact (h.agrees other shelf' there).spare (others other (Ne.symm same))

/-- The queues that do not exist after a change of one of them did not exist before. -/
private theorem empty_set (h : Ledger log s) {shelf : Shelf} {new : List Incident}
    (others : ∀ other, url ≠ other → Spares other new) :
    ∀ other, (s.set url shelf).shelves other = none → storedAt other (log ++ new) = [] := by
  intro other absent
  by_cases same : other = url
  · subst same
    simp at absent
  · rw [Stock.set_shelves_of_ne s same] at absent
    simp [h.empty other absent, (others other (Ne.symm same)).stored]

theorem draw (h : Ledger log s) : Ledger log s.drawn :=
  { h with
    minted := fun text mem => by
      obtain ⟨n, lt, eq⟩ := h.minted text mem
      exact ⟨n, Nat.lt_succ_of_lt lt, eq⟩ }

theorem build (h : Ledger log s) (free : s.shelves url = none) (fifo : Bool) :
    Ledger log (s.set url ⟨fifo, []⟩) := by
  have changed : Shelf.Agrees url (log ++ []) ⟨fifo, []⟩ :=
    ⟨by simp [presentAt, h.empty url free], nofun⟩
  have others : ∀ other, url ≠ other → Spares other [] := fun other _ => spares_nil other
  exact { h with
    empty := by simpa using h.empty_set others
    agrees := by simpa using h.agrees_set changed others }

private theorem nodup_snoc {α : Type} {xs : List α} {x : α} (h : xs.Nodup) (hx : x ∉ xs) :
    (xs ++ [x]).Nodup :=
  List.nodup_append.2 ⟨h, List.nodup_singleton x, fun _ hy _ hz same =>
    hx (List.mem_singleton.1 hz ▸ same ▸ hy)⟩

private theorem exists_stored_append {id : MessageId} (new : List Incident)
    (h : ∃ m ∈ storedAt url log, m.id = id) : ∃ m ∈ storedAt url (log ++ new), m.id = id := by
  obtain ⟨m, stored, own⟩ := h
  refine ⟨m, ?_, own⟩
  rw [storedAt_append]
  exact List.mem_append_left _ stored

/-- Who gets the next text of the mint is new to the log. -/
private theorem minted_snoc (h : Ledger log s) {i : Incident}
    (text : i.text? = some (Mint.text s.next)) :
    (∀ text ∈ (log ++ [i]).filterMap Incident.text?, ∃ n < s.next + 1, text = Mint.text n) ∧
      ((log ++ [i]).filterMap Incident.text?).Nodup := by
  have texts : (log ++ [i]).filterMap Incident.text? =
      log.filterMap Incident.text? ++ [Mint.text s.next] := by
    simp [text]
  rw [texts]
  refine ⟨fun t mem => ?_, nodup_snoc h.distinct h.fresh⟩
  rcases List.mem_append.1 mem with mem | mem
  · obtain ⟨n, lt, eq⟩ := h.minted t mem
    exact ⟨n, Nat.lt_succ_of_lt lt, eq⟩
  · exact ⟨s.next, Nat.lt_succ_self _, List.mem_singleton.1 mem⟩

/-- A message with a new identifier has not been stored before. -/
private theorem id_ne_of_fresh (h : Ledger log s) {m : Stored}
    (id_eq : m.id.text = Mint.text s.next) {m₀ : Stored} (hm₀ : m₀ ∈ storedAt url log) :
    m₀.id ≠ m.id := by
  intro same
  refine h.fresh ?_
  rw [← id_eq, ← same]
  exact mem_texts_of_stored hm₀

/-- A message with a new identifier has not been delivered or removed either. -/
private theorem untouched_of_fresh (h : Ledger log s) (url : String) {m : Stored}
    (id_eq : m.id.text = Mint.text s.next) :
    m.id ∉ removedAt url log ∧ ∀ r ∈ deliveredAt url log, r.id ≠ m.id := by
  constructor
  · intro mem
    obtain ⟨m₀, hm₀, same⟩ := h.gone url _ mem
    exact h.id_ne_of_fresh id_eq hm₀ same
  · intro r hr same
    obtain ⟨m₀, hm₀, origin⟩ := h.origin url r hr
    exact h.id_ne_of_fresh id_eq hm₀ (origin.trans same)

/-- A queue with one more message is what the log says after its storing. -/
private theorem agrees_store (h : Ledger log s) {fifo : Bool} {messages : List Stored} {m : Stored}
    (there : s.shelves url = some ⟨fifo, messages⟩) (id_eq : m.id.text = Mint.text s.next)
    (undelivered : m.receipt = none) :
    Shelf.Agrees url (log ++ [.stored url m]) ⟨fifo, messages ++ [m]⟩ := by
  have agrees := h.agrees url _ there
  obtain ⟨kept, fresh⟩ := h.untouched_of_fresh url id_eq
  constructor
  · simpa [presentAt, kept] using agrees.present
  · intro m' mem
    rw [latestReceipt_append (by simp)]
    rcases List.mem_append.1 mem with mem | mem
    · exact agrees.receipt m' mem
    · rw [List.mem_singleton.1 mem, undelivered]
      exact (latestReceipt_eq_none fresh).symm

theorem store (h : Ledger log s) {fifo : Bool} {messages : List Stored} {m : Stored}
    (there : s.shelves url = some ⟨fifo, messages⟩) (id_eq : m.id.text = Mint.text s.next)
    (undelivered : m.receipt = none) :
    Ledger (log ++ [.stored url m]) (s.set url ⟨fifo, messages ++ [m]⟩).drawn := by
  have minted := h.minted_snoc (i := .stored url m) (congrArg some id_eq)
  have others : ∀ other, url ≠ other → Spares other [.stored url m] :=
    fun other apart => spares_stored apart m
  exact {
    minted := minted.1
    distinct := minted.2
    empty := h.empty_set others
    agrees := h.agrees_set (h.agrees_store there id_eq undelivered) others
    origin := fun other r hr => exists_stored_append _ (h.origin other r (by simpa using hr))
    gone := fun other id hid => exists_stored_append _ (h.gone other id (by simpa using hid))
    once := fun other => by simpa using h.once other }

theorem id_ne (h : Ledger log s) {fifo : Bool} {before after : List Stored} {m : Stored}
    (there : s.shelves url = some ⟨fifo, before ++ m :: after⟩) :
    ∀ m' ∈ before ++ after, m'.id ≠ m.id := by
  have distinct := h.shelf_nodup there
  simp only [List.map_append, List.map_cons, List.nodup_append, List.nodup_cons] at distinct
  obtain ⟨-, ⟨notAfter, -⟩, apart⟩ := distinct
  intro m' mem same
  rcases List.mem_append.1 mem with mem | mem
  · exact apart _ (List.mem_map_of_mem mem) _ List.mem_cons_self same
  · exact notAfter (same ▸ List.mem_map_of_mem mem)

private theorem mem_middle {α : Type} {x y : α} {before after : List α} :
    y ∈ before ++ x :: after ↔ y = x ∨ y ∈ before ++ after := by
  simp [or_left_comm]

/-- A queue whose message has been delivered is what the log says after the delivery. -/
private theorem agrees_deliver (h : Ledger log s) {fifo : Bool} {before after : List Stored}
    {m : Stored} (there : s.shelves url = some ⟨fifo, before ++ m :: after⟩) (receipt : Receipt)
    (visibleAt : Nat) :
    Shelf.Agrees url (log ++ [.delivered url (m.toReceived receipt)])
      ⟨fifo, before ++ m.delivered receipt visibleAt :: after⟩ := by
  have agrees := h.agrees url _ there
  have own : m ∈ before ++ m :: after := by simp
  constructor
  · simpa [presentAt, Stored.asSent_delivered] using agrees.present
  · intro m' mem
    rcases mem_middle.1 mem with rfl | mem
    · exact (latestReceipt_delivered (m.toReceived _)).symm
    · have other : m.id ≠ m'.id := (h.id_ne there m' mem).symm
      rw [latestReceipt_append (by simpa [Stored.toReceived] using other)]
      exact agrees.receipt m' (mem_middle.2 (.inr mem))

theorem deliver (h : Ledger log s) {fifo : Bool} {before after : List Stored} {m : Stored}
    (there : s.shelves url = some ⟨fifo, before ++ m :: after⟩) (visibleAt : Nat) :
    Ledger (log ++ [.delivered url (m.toReceived ⟨Mint.text s.next⟩)])
      (s.set url
        ⟨fifo, before ++ m.delivered ⟨Mint.text s.next⟩ visibleAt :: after⟩).drawn := by
  have own : m ∈ before ++ m :: after := by simp
  obtain ⟨-, m₀, stored, same⟩ := h.exists_present there own
  have others : ∀ other, url ≠ other →
      Spares other [.delivered url (m.toReceived ⟨Mint.text s.next⟩)] :=
    fun other apart => spares_delivered apart _
  have minted := h.minted_snoc (i := .delivered url (m.toReceived ⟨Mint.text s.next⟩)) rfl
  exact {
    minted := minted.1
    distinct := minted.2
    empty := h.empty_set others
    agrees := h.agrees_set (h.agrees_deliver there _ visibleAt) others
    origin := by
      intro other r hr
      refine exists_stored_append _ ?_
      rw [deliveredAt_append, List.mem_append] at hr
      rcases hr with hr | hr
      · exact h.origin other r hr
      · obtain ⟨rfl, rfl⟩ : url = other ∧ r = m.toReceived _ := by
          simpa [and_comm, eq_comm] using hr
        exact ⟨m₀, stored, Stored.id_eq_of_asSent same⟩
    gone := fun other id hid => exists_stored_append _ (h.gone other id (by simpa using hid))
    once := fun other => by simpa using h.once other }

theorem count (h : Ledger log s) {fifo : Bool} {before after : List Stored} {m : Stored}
    (there : s.shelves url = some ⟨fifo, before ++ m :: after⟩) :
    Ledger log
      (s.set url ⟨fifo, before ++ { m with receiveCount := m.receiveCount + 1 } :: after⟩) := by
  have agrees := h.agrees url _ there
  have own : m ∈ before ++ m :: after := by simp
  have others : ∀ other, url ≠ other → Spares other [] := fun other _ => spares_nil other
  have changed : Shelf.Agrees url (log ++ [])
      ⟨fifo, before ++ { m with receiveCount := m.receiveCount + 1 } :: after⟩ := by
    rw [List.append_nil]
    constructor
    · simpa [Stored.asSent] using agrees.present
    · intro m' mem
      rcases mem_middle.1 mem with rfl | mem
      · exact agrees.receipt m own
      · exact agrees.receipt m' (mem_middle.2 (.inr mem))
  exact { h with
    empty := by simpa using h.empty_set others
    agrees := by simpa using h.agrees_set changed others }

private theorem agrees_remove (h : Ledger log s) {fifo : Bool} {before after : List Stored}
    {m : Stored} (there : s.shelves url = some ⟨fifo, before ++ m :: after⟩) (receipt : Receipt) :
    Shelf.Agrees url (log ++ [.removed url receipt m.id]) ⟨fifo, before ++ after⟩ := by
  have agrees := h.agrees url _ there
  have rest : (before ++ m :: after).filter (·.id ≠ m.id) = before ++ after := by
    have apart := h.id_ne there
    simp only [List.mem_append] at apart
    simp only [List.filter_append, List.filter_cons, ne_eq, not_true_eq_false, decide_false,
      Bool.false_eq_true, ↓reduceIte]
    rw [List.filter_eq_self.2 fun m' mem => decide_eq_true (apart m' (.inl mem)),
      List.filter_eq_self.2 fun m' mem => decide_eq_true (apart m' (.inr mem))]
  constructor
  · calc (before ++ after).map Stored.asSent
        = ((before ++ m :: after).map Stored.asSent).filter (·.id ≠ m.id) := by
          rw [List.filter_map, ← rest]
          rfl
      _ = ((presentAt url log).map Stored.asSent).filter (·.id ≠ m.id) := by
          rw [agrees.present]
      _ = (presentAt url (log ++ [.removed url receipt m.id])).map Stored.asSent := by
          rw [List.filter_map, presentAt_removed]
          rfl
  · intro m' mem
    rw [latestReceipt_append (by simp)]
    exact agrees.receipt m' (mem_middle.2 (.inr mem))

theorem remove (h : Ledger log s) {fifo : Bool} {before after : List Stored} {m : Stored}
    (there : s.shelves url = some ⟨fifo, before ++ m :: after⟩) (receipt : Receipt) :
    Ledger (log ++ [.removed url receipt m.id]) (s.set url ⟨fifo, before ++ after⟩) := by
  have own : m ∈ before ++ m :: after := by simp
  obtain ⟨kept, m₀, stored, same⟩ := h.exists_present there own
  have others : ∀ other, url ≠ other → Spares other [.removed url receipt m.id] :=
    fun other apart => spares_removed apart _ _
  have texts : (log ++ [Incident.removed url receipt m.id]).filterMap Incident.text? =
      log.filterMap Incident.text? := List.filterMap_append.trans (List.append_nil _)
  exact {
    minted := texts ▸ h.minted
    distinct := texts ▸ h.distinct
    empty := h.empty_set others
    agrees := h.agrees_set (h.agrees_remove there receipt) others
    origin := by simpa using h.origin
    gone := by
      intro other id hid
      refine exists_stored_append _ ?_
      rw [removedAt_append, List.mem_append] at hid
      rcases hid with hid | hid
      · exact h.gone other id hid
      · obtain ⟨rfl, rfl⟩ : url = other ∧ id = m.id := by simpa [and_comm, eq_comm] using hid
        exact ⟨m₀, stored, Stored.id_eq_of_asSent same⟩
    once := by
      intro other
      by_cases same : url = other
      · subst same
        simpa using nodup_snoc (h.once url) kept
      · simpa [same] using h.once other }

theorem change (h : Ledger log s) {new : List Incident} {s' : Stock} (hc : s.Change new s') :
    Ledger (log ++ new) s' := by
  cases hc with
  | draw => simpa using h.draw
  | build free fifo => simpa using h.build free fifo
  | store there id_eq undelivered => exact h.store there id_eq undelivered
  | deliver visibleAt there turn => exact h.deliver there visibleAt
  | count there => simpa using h.count there
  | remove there current => exact h.remove there _

end Ledger

/-- The log of a history is a ledger. -/
theorem Stock.Changes.ledger {log : List Incident} {s : Stock} (h : Changes {} log s) :
    Ledger log s := by
  induction h with
  | refl => exact ⟨nofun, .nil, fun _ _ => rfl, nofun, nofun, nofun, fun _ => .nil⟩
  | step h hc ih => exact ih.change hc

/-! ### What the ledger says about a broker -/

namespace Broker.Reached

variable {log : List Incident} {b : Broker} {url url' : String} {m m' : Stored}

/-- The log knows which messages a queue has. -/
theorem messages_eq_present (h : Reached log b) (url : String) :
    (b.messages url).map Stored.asSent = (presentAt url log).map Stored.asSent := by
  have ledger := h.changes.ledger
  rw [messages_eq]
  cases there : b.stock.shelves url with
  | none =>
    have empty := ledger.empty url there
    simp [presentAt, empty]
  | some shelf => exact (ledger.agrees url shelf there).present

/-- A message in a queue was stored there and has not been removed. -/
theorem present_of_mem (h : Reached log b) (mem : m ∈ b.messages url) :
    m.id ∉ removedAt url log ∧ ∃ m₀ ∈ storedAt url log, m₀.id = m.id := by
  have present : m.asSent ∈ (presentAt url log).map Stored.asSent :=
    h.messages_eq_present url ▸ List.mem_map_of_mem mem
  obtain ⟨m₀, kept, same⟩ := List.mem_map.1 present
  obtain ⟨stored, kept⟩ := List.mem_filter.1 kept
  have own := Stored.id_eq_of_asSent same
  exact ⟨own ▸ of_decide_eq_true kept, m₀, stored, own⟩

/-- A message in a queue has not been removed from any queue. -/
theorem not_removed_of_mem (h : Reached log b) (mem : m ∈ b.messages url) (receipt : Receipt) :
    .removed url' receipt m.id ∉ log := by
  intro removed
  have gone := mem_removedAt.2 ⟨receipt, removed⟩
  obtain ⟨kept, m₀, stored, own⟩ := h.present_of_mem mem
  obtain ⟨m₁, stored', own'⟩ := h.changes.ledger.gone url' _ gone
  obtain ⟨rfl, -⟩ := h.changes.ledger.stored_unique stored stored' (own.trans own'.symm)
  exact kept gone

/-- Two messages in queues have different identifiers. -/
theorem message_unique (h : Reached log b) (mem : m ∈ b.messages url) (mem' : m' ∈ b.messages url')
    (same : m.id = m'.id) : url = url' ∧ m = m' := by
  have ledger := h.changes.ledger
  obtain ⟨-, m₀, stored, own⟩ := h.present_of_mem mem
  obtain ⟨-, m₁, stored', own'⟩ := h.present_of_mem mem'
  obtain ⟨rfl, -⟩ := ledger.stored_unique stored stored' (own.trans (same.trans own'.symm))
  refine ⟨rfl, ?_⟩
  rw [messages_eq] at mem mem'
  cases there : b.stock.shelves url with
  | none =>
    rw [there] at mem
    nomatch mem
  | some shelf =>
    rw [there] at mem mem'
    exact List.inj_on_of_nodup_map (ledger.shelf_nodup there) mem mem' same

end Broker.Reached

end Courier
