import Courier.Proofs.Broker.Deduplication
import Courier.Proofs.Broker.Journal

/-!
# The scan of a receive call

A receive call goes through the messages of a queue from the front and keeps the groups that it has
passed. What it hands out can be said without going through anything: a message can be received when
no delivery hides it and, on a queue that keeps its messages in order, no message in front of it has
its group. The call hands out the first of these messages, as many as it asks for, and leaves the
others alone.

## Main definitions

* `Queue.receivable`: the messages that can be received, with their positions.
* `Queue.taken`: those that a receive call takes.
* `Broker.Takes`: what a receive call takes, and what it does with it.

## Main results

* `Queue.selectFrom_eq`: the scan marks exactly the messages that are taken.
* `Queue.deliver_marked`: the messages that are marked are delivered, and no others are touched.
* `Broker.check_takes`: what a receive call comes to.
-/

namespace Courier

namespace Queue

/-- Whether the message `m` can be received at an instant, when `earlier` are the messages in front
of it. -/
def isReceivable (q : Queue) (now : Nat) (earlier : List Stored) (m : Stored) : Bool :=
  m.isVisible now && (q.groupOf m).all fun g => earlier.all fun m' => q.groupOf m' ≠ some g

/-- The messages behind `earlier` that can be received, with their positions in the queue, when `ms`
are all messages behind `earlier`. -/
def receivableFrom (q : Queue) (now : Nat) (earlier ms : List Stored) : List (Stored × Nat) :=
  (ms.zipIdx earlier.length).filter fun x => q.isReceivable now ((earlier ++ ms).take x.2) x.1

/-- The messages that can be received, with their positions, in the order of the queue. -/
def receivable (q : Queue) (now : Nat) : List (Stored × Nat) :=
  q.receivableFrom now [] q.messages

/-- The messages that a receive call for at most `max` messages takes, with their positions. -/
def taken (q : Queue) (now max : Nat) : List (Stored × Nat) :=
  (q.receivable now).take max

variable {q : Queue} {now : Nat} {earlier ms : List Stored} {m : Stored}

theorem isReceivable_iff : q.isReceivable now earlier m = true ↔
    m.visibleAt ≤ now ∧ ∀ g, q.groupOf m = some g → ∀ m' ∈ earlier, q.groupOf m' ≠ some g := by
  cases group : q.groupOf m <;> simp [isReceivable, Stored.isVisible, group]

theorem receivableFrom_cons (q : Queue) (now : Nat) (earlier : List Stored) (m : Stored)
    (ms : List Stored) : q.receivableFrom now earlier (m :: ms) =
      if q.isReceivable now earlier m then
        (m, earlier.length) :: q.receivableFrom now (earlier ++ [m]) ms
      else q.receivableFrom now (earlier ++ [m]) ms := by
  have split : earlier ++ m :: ms = (earlier ++ [m]) ++ ms := by simp
  have here : q.isReceivable now ((earlier ++ m :: ms).take (m, earlier.length).2)
      (m, earlier.length).1 = q.isReceivable now earlier m := by
    simp
  rw [receivableFrom, List.zipIdx_cons, List.filter_cons, here, split]
  simp only [receivableFrom, List.length_append, List.length_singleton]

theorem receivableFrom_sublist (q : Queue) (now : Nat) (earlier ms : List Stored) :
    (q.receivableFrom now earlier ms).Sublist (ms.zipIdx earlier.length) :=
  List.filter_sublist

theorem zipIdx_ordered (ms : List Stored) (k : Nat) : (ms.zipIdx k).Pairwise (·.2 < ·.2) := by
  have positions : ((ms.zipIdx k).map Prod.snd).Pairwise (· < ·) := by
    rw [List.zipIdx_map_snd]
    exact List.pairwise_lt_range'
  exact List.pairwise_map.1 positions

theorem zipIdx_nodup (ms : List Stored) (k : Nat) : (ms.zipIdx k).Nodup :=
  (zipIdx_ordered ms k).imp fun lt same => absurd (congrArg Prod.snd same) (Nat.ne_of_lt lt)

/-! ### What can be received and what is taken -/

/-- A message can be received when no delivery hides it and, on a queue that keeps its messages in
order, no message in front of it has its group. -/
theorem mem_receivable (q : Queue) (now : Nat) (m : Stored) (i : Nat) :
    (m, i) ∈ q.receivable now ↔ q.messages[i]? = some m ∧ m.visibleAt ≤ now ∧
      (q.fifo = true → ∀ g, m.group = some g → ∀ m' ∈ q.messages.take i, m'.group ≠ some g) := by
  have groups : (∀ g, q.groupOf m = some g → ∀ m' ∈ q.messages.take i, q.groupOf m' ≠ some g) ↔
      (q.fifo = true → ∀ g, m.group = some g → ∀ m' ∈ q.messages.take i, m'.group ≠ some g) := by
    cases fifo : q.fifo <;> simp [groupOf, fifo]
  simp only [receivable, receivableFrom, List.mem_filter, List.length_nil, List.nil_append,
    List.mem_zipIdx_iff_getElem?, isReceivable_iff, groups]

theorem receivable_ordered (q : Queue) (now : Nat) :
    (q.receivable now).Pairwise (·.2 < ·.2) :=
  (zipIdx_ordered q.messages 0).sublist (q.receivableFrom_sublist now [] q.messages)

theorem taken_sublist (q : Queue) (now max : Nat) :
    (q.taken now max).Sublist q.messages.zipIdx :=
  (List.take_sublist max _).trans (q.receivableFrom_sublist now [] q.messages)

/-- In a list with ascending positions, an entry is among the first `n` when fewer than `n` others
have smaller positions. -/
theorem mem_take_iff {l : List (Stored × Nat)} (ordered : l.Pairwise (·.2 < ·.2)) (n : Nat)
    (x : Stored × Nat) : x ∈ l.take n ↔ x ∈ l ∧ l.countP (·.2 < x.2) < n := by
  induction l generalizing n with
  | nil => simp
  | cons a l ih =>
    obtain ⟨first, ordered⟩ := List.pairwise_cons.1 ordered
    cases n with
    | zero => simp
    | succ n =>
      rw [List.take_succ_cons, List.mem_cons, List.mem_cons, ih ordered, List.countP_cons]
      by_cases same : x = a
      · subst same
        have none_ : l.countP (·.2 < x.2) = 0 :=
          List.countP_eq_zero.2 fun y mem => by simpa using Nat.le_of_lt (first y mem)
        simp [none_]
      · simp only [same, false_or]
        refine and_congr_right fun mem => ?_
        have earlier : a.2 < x.2 := first x mem
        simp [earlier]

/-- A message that can be received is taken unless the batch is full of such messages in front of
it: hidden messages and messages whose group is blocked take no place. -/
theorem mem_taken (q : Queue) (now max : Nat) (x : Stored × Nat) : x ∈ q.taken now max ↔
    x ∈ q.receivable now ∧ (q.receivable now).countP (·.2 < x.2) < max :=
  mem_take_iff (q.receivable_ordered now) max x

/-! ### The marks -/

/-- The messages of a list with positions, marked when they are among the messages `taken`. -/
def marked (taken l : List (Stored × Nat)) : List (Stored × Bool) :=
  l.map fun x => (x.1, decide (x ∈ taken))

theorem marked_nil (ms : List Stored) (k : Nat) :
    marked [] (ms.zipIdx k) = ms.map (·, false) := by
  calc marked [] (ms.zipIdx k)
    _ = ((ms.zipIdx k).map Prod.fst).map (·, false) := by
      rw [List.map_map]
      simp [marked, Function.comp_def]
    _ = ms.map (·, false) := by rw [List.zipIdx_map_fst]

theorem marked_cons_of_not_mem {x : Stored × Nat} {taken : List (Stored × Nat)} (h : x ∉ taken)
    (l : List (Stored × Nat)) : marked taken (x :: l) = (x.1, false) :: marked taken l := by
  simp [marked, h]

theorem marked_cons_self {x : Stored × Nat} {l : List (Stored × Nat)} (h : x ∉ l)
    (taken : List (Stored × Nat)) :
    marked (x :: taken) (x :: l) = (x.1, true) :: marked taken l := by
  have others : ∀ y ∈ l, (y.1, decide (y ∈ x :: taken)) = (y.1, decide (y ∈ taken)) := by
    intro y mem
    have apart : y ≠ x := fun same => h (same ▸ mem)
    simp [apart]
  rw [marked, List.map_cons, List.map_congr_left others]
  simp [marked]

/-- A message at its position does not stand behind that position. -/
theorem not_mem_zipIdx (m : Stored) (ms : List Stored) (k : Nat) : (m, k) ∉ ms.zipIdx (k + 1) := by
  have all : ((m :: ms).zipIdx k).Nodup := zipIdx_nodup (m :: ms) k
  rw [List.zipIdx_cons] at all
  exact (List.nodup_cons.1 all).1

/-- A message that cannot be received is not marked. -/
theorem marked_pass (no : ¬q.isReceivable now earlier m = true) (room : Nat) (ms : List Stored) :
    marked ((q.receivableFrom now earlier (m :: ms)).take room)
        ((m :: ms).zipIdx earlier.length) =
      (m, false) :: marked ((q.receivableFrom now (earlier ++ [m]) ms).take room)
        (ms.zipIdx (earlier ++ [m]).length) := by
  have behind := (List.take_sublist room _).trans (q.receivableFrom_sublist now (earlier ++ [m]) ms)
  rw [List.length_append, List.length_singleton] at behind
  rw [receivableFrom_cons, if_neg no, List.zipIdx_cons, marked_cons_of_not_mem]
  · simp
  · exact fun mem => not_mem_zipIdx m ms earlier.length (behind.subset mem)

/-- A message that can be received is marked when there is room. -/
theorem marked_hand (yes : q.isReceivable now earlier m = true) (room : Nat) (ms : List Stored) :
    marked ((q.receivableFrom now earlier (m :: ms)).take (room + 1))
        ((m :: ms).zipIdx earlier.length) =
      (m, true) :: marked ((q.receivableFrom now (earlier ++ [m]) ms).take room)
        (ms.zipIdx (earlier ++ [m]).length) := by
  rw [receivableFrom_cons, if_pos yes, List.zipIdx_cons, List.take_succ_cons,
    marked_cons_self (not_mem_zipIdx m ms earlier.length), List.length_append,
    List.length_singleton]

/-! ### The scan -/

/-- The groups in `blocked` are those of the messages that the scan has passed. -/
def Passed (q : Queue) (earlier : List Stored) (blocked : List String) : Prop :=
  ∀ g, g ∈ blocked ↔ ∃ m ∈ earlier, q.groupOf m = some g

namespace Passed

variable {blocked : List String} {g : String}

theorem groupless (h : q.Passed earlier blocked) (none_ : q.groupOf m = none) :
    q.Passed (earlier ++ [m]) blocked := by
  intro g
  simp [h g, or_and_right, exists_or, none_]

theorem again (h : q.Passed earlier blocked) (group : q.groupOf m = some g) (mem : g ∈ blocked) :
    q.Passed (earlier ++ [m]) blocked := by
  intro g'
  simp only [h g', List.mem_append, List.mem_singleton, or_and_right, exists_or, exists_eq_left,
    group, Option.some.injEq]
  refine ⟨.inl, fun either => either.elim id ?_⟩
  rintro rfl
  exact (h g).1 mem

theorem add (h : q.Passed earlier blocked) (group : q.groupOf m = some g) :
    q.Passed (earlier ++ [m]) (g :: blocked) := by
  intro g'
  simp [h g', or_and_right, exists_or, group, or_comm, eq_comm]

/-- A message can be received when it is visible and its group is not among those passed. -/
theorem isReceivable_iff (h : q.Passed earlier blocked) : q.isReceivable now earlier m = true ↔
    m.isVisible now = true ∧ ∀ g, q.groupOf m = some g → g ∉ blocked := by
  simp only [Queue.isReceivable_iff, h _, Stored.isVisible, decide_eq_true_eq, not_exists, not_and]

end Passed

/-- The scan marks the messages that can be received, as long as there is room. The groups that it
has passed are those that it keeps. -/
theorem selectFrom_eq (q : Queue) (now room : Nat) (blocked : List String) (ms : List Stored)
    (earlier : List Stored) (passed : q.Passed earlier blocked) :
    q.selectFrom now room blocked ms =
      marked ((q.receivableFrom now earlier ms).take room) (ms.zipIdx earlier.length) := by
  fun_induction selectFrom q now room blocked ms generalizing earlier with
  | case1 => rfl
  | case2 blocked ms => rw [List.take_zero, marked_nil]
  | case3 room blocked m ms group at_ mem ih =>
    have no : ¬q.isReceivable now earlier m = true := fun yes =>
      (passed.isReceivable_iff.1 yes).2 group at_ mem
    rw [ih _ (passed.again at_ mem), marked_pass no]
  | case4 room blocked m ms group at_ free visible ih =>
    have yes : q.isReceivable now earlier m = true :=
      passed.isReceivable_iff.2 ⟨visible, fun g same => Option.some.inj (at_ ▸ same) ▸ free⟩
    rw [ih _ (passed.add at_), marked_hand yes]
  | case5 room blocked m ms group at_ free hidden ih =>
    have no : ¬q.isReceivable now earlier m = true := fun yes =>
      hidden (passed.isReceivable_iff.1 yes).1
    rw [ih _ (passed.add at_), marked_pass no]
  | case6 room blocked m ms none_ visible ih =>
    have yes : q.isReceivable now earlier m = true := by
      refine passed.isReceivable_iff.2 ⟨visible, fun g group => ?_⟩
      rw [none_] at group
      cases group
    rw [ih _ (passed.groupless none_), marked_hand yes]
  | case7 room blocked m ms none_ hidden ih =>
    have no : ¬q.isReceivable now earlier m = true := fun yes =>
      hidden (passed.isReceivable_iff.1 yes).1
    rw [ih _ (passed.groupless none_), marked_pass no]

theorem select_eq (q : Queue) (now max : Nat) :
    q.select now max = marked (q.taken now max) q.messages.zipIdx :=
  q.selectFrom_eq now max [] q.messages [] (by simp [Passed])

/-! ### The deliveries -/

/-- What is handed out of the messages that are taken. The receipts have the numbers from `first`
on. -/
def batchOf (first : Nat) (taken : List (Stored × Nat)) : List Received :=
  (taken.zipIdx first).map fun x => x.1.1.toReceived ⟨Mint.text x.2⟩

/-- All messages after those that are taken were delivered. -/
def deliveredOf (first visibleAt : Nat) (taken l : List (Stored × Nat)) : List Stored :=
  l.map fun x => if x ∈ taken then
    x.1.delivered ⟨Mint.text (first + taken.idxOf x)⟩ visibleAt else x.1

/-- All messages after a delivery of the first that is taken was counted. -/
def countedOf (taken l : List (Stored × Nat)) : List Stored :=
  l.map fun x => if taken.head? = some x then
    { x.1 with receiveCount := x.1.receiveCount + 1 } else x.1

theorem deliveredOf_nil (first visibleAt : Nat) (ms : List Stored) :
    deliveredOf first visibleAt [] ms.zipIdx = ms := by
  simp [deliveredOf]

theorem deliveredOf_cons_of_not_mem {x : Stored × Nat} {taken : List (Stored × Nat)}
    (h : x ∉ taken) (first visibleAt : Nat) (l : List (Stored × Nat)) :
    deliveredOf first visibleAt taken (x :: l) = x.1 :: deliveredOf first visibleAt taken l := by
  simp [deliveredOf, h]

/-- The first message that is taken has the first receipt. -/
theorem deliveredOf_cons_self {x : Stored × Nat} {l : List (Stored × Nat)} (h : x ∉ l)
    (first visibleAt : Nat) (taken : List (Stored × Nat)) :
    deliveredOf first visibleAt (x :: taken) (x :: l) =
      x.1.delivered ⟨Mint.text first⟩ visibleAt ::
        deliveredOf (first + 1) visibleAt taken l := by
  rw [deliveredOf, List.map_cons, deliveredOf]
  congr 1
  · simp
  · refine List.map_congr_left fun y mem => ?_
    have apart : x ≠ y := fun same => h (same ▸ mem)
    have behind : first + (x :: taken).idxOf y = first + 1 + taken.idxOf y := by
      rw [List.idxOf_cons_ne _ apart]
      omega
    simp only [List.mem_cons, apart.symm, false_or, behind]

/-- The messages that are marked are delivered, one receipt after the other, and the others are
left alone. -/
theorem deliver_marked {taken l : List (Stored × Nat)} (nodup : l.Nodup) (some_ : taken.Sublist l)
    (first visibleAt : Nat) : deliver visibleAt ⟨first⟩ (marked taken l) =
      (batchOf first taken, deliveredOf first visibleAt taken l, ⟨first + taken.length⟩) := by
  induction some_ generalizing first with
  | slnil => rfl
  | @cons taken l x some_ ih =>
    obtain ⟨apart, nodup⟩ := List.nodup_cons.1 nodup
    have not_taken : x ∉ taken := fun mem => apart (some_.subset mem)
    rw [marked_cons_of_not_mem not_taken, deliveredOf_cons_of_not_mem not_taken, deliver,
      ih nodup]
  | @cons_cons taken l x some_ ih =>
    obtain ⟨apart, nodup⟩ := List.nodup_cons.1 nodup
    have rest := ih nodup (first + 1)
    rw [marked_cons_self apart, deliveredOf_cons_self apart, deliver]
    simp only [Mint.draw, rest, batchOf, List.zipIdx_cons, List.map_cons, List.length_cons]
    congr 3
    omega

theorem countFirst_marked {taken l : List (Stored × Nat)} (nodup : l.Nodup)
    (some_ : taken.Sublist l) : countFirst (marked taken l) = countedOf taken l := by
  induction some_ with
  | slnil => rfl
  | @cons taken l x some_ ih =>
    obtain ⟨apart, nodup⟩ := List.nodup_cons.1 nodup
    have not_taken : x ∉ taken := fun mem => apart (some_.subset mem)
    have not_first : taken.head? ≠ some x := fun first => not_taken (List.mem_of_head? first)
    rw [marked_cons_of_not_mem not_taken, countFirst, ih nodup]
    simp [countedOf, not_first]
  | @cons_cons taken l x some_ ih =>
    obtain ⟨apart, nodup⟩ := List.nodup_cons.1 nodup
    have rest : ∀ y ∈ l, y.1 = if (x :: taken).head? = some y then
        { y.1 with receiveCount := y.1.receiveCount + 1 } else y.1 := by
      intro y mem
      have other : x ≠ y := fun same => apart (same ▸ mem)
      simp [other]
    rw [marked_cons_self apart, countFirst, countedOf, List.map_cons, ← List.map_congr_left rest]
    simp [marked]

theorem any_marked {taken l : List (Stored × Nat)} (some_ : taken.Sublist l) :
    (marked taken l).any (·.2) = true ↔ taken ≠ [] := by
  constructor
  · intro any
    obtain ⟨x, mem, yes⟩ := List.any_eq_true.1 any
    obtain ⟨y, -, rfl⟩ := List.mem_map.1 mem
    exact List.ne_nil_of_mem (of_decide_eq_true yes)
  · intro some'
    obtain ⟨x, mem⟩ := List.exists_mem_of_ne_nil taken some'
    exact List.any_eq_true.2 ⟨_, List.mem_map.2 ⟨x, some_.subset mem, rfl⟩, decide_eq_true mem⟩

/-! ### Queues without order -/

end Queue

/-- A message without its group. -/
def Stored.ungrouped (m : Stored) : Stored :=
  { m with group := none }

namespace Queue

/-- A selection without the groups of its messages. -/
def ungroup (selection : List (Stored × Bool)) : List (Stored × Bool) :=
  selection.map fun x => (x.1.ungrouped, x.2)

/-- Groups have no influence on the scan of a queue that does not keep its messages in order. -/
theorem ungroup_selectFrom {q : Queue} (unordered : q.fifo = false) (now room : Nat)
    (blocked : List String) (ms : List Stored) : ungroup (q.selectFrom now room blocked ms) =
      ({ fifo := false } : Queue).selectFrom now room blocked (ms.map Stored.ungrouped) := by
  have groupless (m : Stored) : q.groupOf m = none := by simp [groupOf, unordered]
  have groupless' (m : Stored) : ({ fifo := false } : Queue).groupOf m = none := rfl
  induction ms generalizing room with
  | nil => simp [selectFrom, ungroup]
  | cons m ms ih =>
    have same : m.ungrouped.isVisible now = m.isVisible now := rfl
    cases room with
    | zero => simp [selectFrom, ungroup]
    | succ room =>
      rw [List.map_cons, selectFrom, selectFrom]
      simp only [groupless, groupless', same]
      split
      · exact congrArg ((m.ungrouped, true) :: ·) (ih room)
      · exact congrArg ((m.ungrouped, false) :: ·) (ih (room + 1))

/-- Groups have no influence on deliveries. -/
theorem deliver_ungroup (visibleAt : Nat) (mint : Mint) (selection : List (Stored × Bool)) :
    deliver visibleAt mint (ungroup selection) =
      ((deliver visibleAt mint selection).1,
        (deliver visibleAt mint selection).2.1.map Stored.ungrouped,
        (deliver visibleAt mint selection).2.2) := by
  induction selection generalizing mint with
  | nil => rfl
  | cons x selection ih =>
    obtain ⟨m, marked⟩ := x
    cases marked with
    | false =>
      have rest := ih mint
      rw [ungroup] at rest
      simp only [ungroup, List.map_cons, deliver, rest]
    | true =>
      have rest := ih mint.draw.2
      rw [ungroup] at rest
      simp only [ungroup, List.map_cons, deliver, rest]
      rfl

theorem countFirst_ungroup (selection : List (Stored × Bool)) :
    countFirst (ungroup selection) = (countFirst selection).map Stored.ungrouped := by
  induction selection with
  | nil => rfl
  | cons x selection ih =>
    obtain ⟨m, marked⟩ := x
    cases marked with
    | false => exact congrArg (m.ungrouped :: ·) ih
    | true =>
      simp only [ungroup, List.map_cons, List.map_map, countFirst]
      rfl

theorem any_ungroup (selection : List (Stored × Bool)) :
    (ungroup selection).any (·.2) = selection.any (·.2) := by
  simp [ungroup, Function.comp_def]

end Queue

/-! ### Replaced queues -/

theorem assign_of_lookup {α β : Type} [DecidableEq α] {key : α} {value : β}
    {es : List (α × β)} (there : es.lookup key = some value) : assign key value es = es := by
  induction es with
  | nil => cases there
  | cons e es ih =>
    obtain ⟨k, v⟩ := e
    by_cases same : k = key
    · subst same
      rw [List.lookup_cons_self] at there
      rw [assign, if_pos rfl, Option.some.inj there]
    · have other : (key == k) = false := by simpa using Ne.symm same
      rw [List.lookup_cons, other] at there
      rw [assign, if_neg same, ih there]

theorem assign_assign {α β : Type} [DecidableEq α] (key : α) (value value' : β)
    (es : List (α × β)) : assign key value (assign key value' es) = assign key value es := by
  induction es with
  | nil => simp [assign]
  | cons e es ih =>
    by_cases same : e.1 = key
    · simp [assign, same]
    · simp [assign, same, ih]

namespace Broker

variable {b : Broker} {q : Identity} {queue : Queue}

theorem setQueue_of_queue {url : String} (there : b.queue? url = some queue) :
    b.setQueue url queue = b := by
  rw [setQueue, assign_of_lookup there]

theorem setQueue_setQueue (b : Broker) (url : String) (queue queue' : Queue) :
    (b.setQueue url queue').setQueue url queue = b.setQueue url queue := by
  simp [setQueue, assign_assign]

theorem queue?_setQueue (b : Broker) (url : String) (queue : Queue) :
    (b.setQueue url queue).queue? url = some queue := by
  simp [queue?, setQueue, lookup_assign]

/-! ### Receive calls -/

/-- A receive call hands out the messages that it takes, if it takes any only until an instant of
the clock. -/
theorem check_eq_ok (there : b.queue? q.url = some queue) (now : Nat) (o : ReceiveOptions)
    (inTime : queue.taken now o.maxMessages = [] ∨ now + o.visibilityTimeout ≤ lastInstant) :
    b.check now q o = (.ok (Queue.batchOf b.mint.next (queue.taken now o.maxMessages)),
      { b.setQueue q.url { queue with
          messages := Queue.deliveredOf b.mint.next (now + o.visibilityTimeout)
            (queue.taken now o.maxMessages) queue.messages.zipIdx } with
        mint := ⟨b.mint.next + (queue.taken now o.maxMessages).length⟩ }) := by
  have nodup := Queue.zipIdx_nodup queue.messages 0
  have some_ := queue.taken_sublist now o.maxMessages
  by_cases within : now + o.visibilityTimeout ≤ lastInstant
  · have until_ : later? now o.visibilityTimeout = some (now + o.visibilityTimeout) :=
      if_pos within
    have delivered := Queue.deliver_marked nodup some_ b.mint.next (now + o.visibilityTimeout)
    simp only [check, there, until_, queue.select_eq, delivered]
  · have nothing := inTime.resolve_right within
    have until_ : later? now o.visibilityTimeout = none := if_neg within
    have unmarked : ¬(Queue.marked [] queue.messages.zipIdx).any (·.2) = true :=
      fun any => (Queue.any_marked (List.nil_sublist _)).1 any rfl
    simp only [check, there, until_, queue.select_eq, nothing, unmarked, Queue.deliveredOf_nil,
      setQueue_of_queue there]
    rfl

/-- A receive call that would hide the messages that it takes beyond the clock is broken off, and
has counted a delivery of the first. -/
theorem check_eq_error (there : b.queue? q.url = some queue) (now : Nat) (o : ReceiveOptions)
    (some_ : queue.taken now o.maxMessages ≠ [])
    (overtime : lastInstant < now + o.visibilityTimeout) :
    b.check now q o = (.error .beyondClock, b.setQueue q.url { queue with
      messages := Queue.countedOf (queue.taken now o.maxMessages) queue.messages.zipIdx }) := by
  have until_ : later? now o.visibilityTimeout = none := if_neg (Nat.not_le.2 overtime)
  have part := queue.taken_sublist now o.maxMessages
  have any := (Queue.any_marked part).2 some_
  have counted := Queue.countFirst_marked (Queue.zipIdx_nodup queue.messages 0) part
  simp only [check, there, until_, queue.select_eq, any, if_true, counted]

theorem receipts_nodup (first : Nat) (taken : List (Stored × Nat)) :
    ((Queue.batchOf first taken).map (·.receipt)).Nodup := by
  have numbers : (Queue.batchOf first taken).map (·.receipt) =
      ((taken.zipIdx first).map Prod.snd).map fun n => ⟨Mint.text n⟩ := by
    simp only [Queue.batchOf, List.map_map]
    rfl
  rw [numbers, List.zipIdx_map_snd]
  exact List.Nodup.map (fun n n' same => Mint.text_injective (congrArg Receipt.text same))
    List.nodup_range'

/-- The receipts of a batch are those of no earlier delivery. -/
theorem Reached.receipts_fresh {log : List Incident} (h : Reached log b)
    (taken : List (Stored × Nat)) {url : String} {r r' : Received}
    (earlier : .delivered url r ∈ log) (mem : r' ∈ Queue.batchOf b.mint.next taken) :
    r'.receipt ≠ r.receipt := by
  obtain ⟨x, inside, rfl⟩ := List.mem_map.1 mem
  obtain ⟨n, before, drawn⟩ := h.changes.ledger.minted r.receipt.text
    (List.mem_filterMap.2 ⟨_, earlier, rfl⟩)
  intro same
  have behind : b.mint.next ≤ x.2 := (List.mem_zipIdx inside).1
  have numbers : x.2 = n := Mint.text_injective ((congrArg Receipt.text same).trans drawn)
  have before : n < b.mint.next := before
  omega

/-- Groups have no influence on what a receive call does with a queue that does not keep its
messages in order. -/
theorem check_regrouped (there : b.queue? q.url = some queue) (unordered : queue.fifo = false)
    (now : Nat) (o : ReceiveOptions) {ms : List Stored}
    (same : ms.map Stored.ungrouped = queue.messages.map Stored.ungrouped) :
    ∃ after, after.map Stored.ungrouped =
        ((b.check now q o).2.messages q.url).map Stored.ungrouped ∧
      (b.setQueue q.url { queue with messages := ms }).check now q o =
        ((b.check now q o).1, (b.check now q o).2.setQueue q.url
          { queue with messages := after }) := by
  have there' := b.queue?_setQueue q.url { queue with messages := ms }
  have scans : Queue.ungroup (Queue.select { queue with messages := ms } now o.maxMessages) =
      Queue.ungroup (queue.select now o.maxMessages) := by
    rw [Queue.select, Queue.select, Queue.ungroup_selectFrom unordered,
      Queue.ungroup_selectFrom (q := { queue with messages := ms }) unordered, same]
  have anys := congrArg (fun selection => selection.any (·.2)) scans
  simp only [Queue.any_ungroup] at anys
  have now_at (queue' : Queue) : (b.setQueue q.url queue').messages q.url = queue'.messages := by
    rw [messages_setQueue, if_pos rfl]
  simp only [check, there, there']
  cases until_ : later? now o.visibilityTimeout with
  | some visibleAt =>
    have both := congrArg (Queue.deliver visibleAt b.mint) scans
    rw [Queue.deliver_ungroup, Queue.deliver_ungroup, Prod.mk.injEq, Prod.mk.injEq] at both
    obtain ⟨batches, messages, mints⟩ := both
    have stored := now_at { queue with
      messages := (Queue.deliver visibleAt b.mint (queue.select now o.maxMessages)).2.1 }
    refine ⟨_, messages.trans (congrArg _ stored.symm), ?_⟩
    have mint_kept : (b.setQueue q.url { queue with messages := ms }).mint = b.mint := rfl
    simp only [mint_kept, batches, mints, setQueue_setQueue]
    exact congrArg (fun b' : Broker => (Except.ok _, ({ b' with mint := _ } : Broker)))
      (b.setQueue_setQueue q.url _ { queue with
        messages := (Queue.deliver visibleAt b.mint (queue.select now o.maxMessages)).2.1 }).symm
  | none =>
    by_cases any : (queue.select now o.maxMessages).any (·.2) = true
    · have counted := congrArg Queue.countFirst scans
      rw [Queue.countFirst_ungroup, Queue.countFirst_ungroup] at counted
      simp only [anys, any, ↓reduceIte]
      have stored := now_at { queue with
        messages := Queue.countFirst (queue.select now o.maxMessages) }
      refine ⟨_, counted.trans (congrArg _ stored.symm), ?_⟩
      rw [setQueue_setQueue, setQueue_setQueue]
    · simp only [anys, any, Bool.false_eq_true, ↓reduceIte]
      refine ⟨ms, ?_, rfl⟩
      rw [same, messages, there]
      rfl

/-- What a receive call takes from a queue and what it does with it. The messages that can be
received are described without the scan; those that are taken are the first of them, and hidden
messages or messages whose group is blocked take no place. -/
structure Takes (b : Broker) (q : Identity) (queue : Queue) (now : Nat) (o : ReceiveOptions) :
    Prop where
  receivable : ∀ m i, (m, i) ∈ queue.receivable now ↔
    queue.messages[i]? = some m ∧ m.visibleAt ≤ now ∧
      (queue.fifo = true → ∀ g, m.group = some g →
        ∀ m' ∈ queue.messages.take i, m'.group ≠ some g)
  ordered : (queue.receivable now).Pairwise (·.2 < ·.2)
  taken : ∀ x, x ∈ queue.taken now o.maxMessages ↔ x ∈ queue.receivable now ∧
    (queue.receivable now).countP (·.2 < x.2) < o.maxMessages
  /-- What is taken is handed out with fresh receipts, counted once more and hidden for the given
  time. All other messages and the order stay as they are. -/
  hands_out : queue.taken now o.maxMessages = [] ∨ now + o.visibilityTimeout ≤ lastInstant →
    b.check now q o = (.ok (Queue.batchOf b.mint.next (queue.taken now o.maxMessages)),
      { b.setQueue q.url { queue with
          messages := Queue.deliveredOf b.mint.next (now + o.visibilityTimeout)
            (queue.taken now o.maxMessages) queue.messages.zipIdx } with
        mint := ⟨b.mint.next + (queue.taken now o.maxMessages).length⟩ })
  /-- A call that would hide messages beyond the clock hands out nothing and counts a delivery of
  the first. -/
  breaks_off : queue.taken now o.maxMessages ≠ [] → lastInstant < now + o.visibilityTimeout →
    b.check now q o = (.error .beyondClock, b.setQueue q.url { queue with
      messages := Queue.countedOf (queue.taken now o.maxMessages) queue.messages.zipIdx })
  receipts_differ :
    ((Queue.batchOf b.mint.next (queue.taken now o.maxMessages)).map (·.receipt)).Nodup
  receipts_fresh : ∀ log, Reached log b → ∀ url r, .delivered url r ∈ log →
    ∀ r' ∈ Queue.batchOf b.mint.next (queue.taken now o.maxMessages), r'.receipt ≠ r.receipt
  /-- On a queue that does not keep its messages in order groups have no influence. -/
  regrouped : queue.fifo = false → ∀ ms : List Stored,
    ms.map Stored.ungrouped = queue.messages.map Stored.ungrouped →
    ∃ after, after.map Stored.ungrouped =
        ((b.check now q o).2.messages q.url).map Stored.ungrouped ∧
      (b.setQueue q.url { queue with messages := ms }).check now q o =
        ((b.check now q o).1, (b.check now q o).2.setQueue q.url
          { queue with messages := after })

/-- A receive call on a queue that is there takes what the queue says, and does with it what is
said. -/
theorem check_takes (there : b.queue? q.url = some queue) (now : Nat) (o : ReceiveOptions) :
    b.Takes q queue now o where
  receivable := queue.mem_receivable now
  ordered := queue.receivable_ordered now
  taken := queue.mem_taken now o.maxMessages
  hands_out := check_eq_ok there now o
  breaks_off := check_eq_error there now o
  receipts_differ := receipts_nodup _ _
  receipts_fresh _ reached _ _ earlier _ mem :=
    reached.receipts_fresh (queue.taken now o.maxMessages) earlier mem
  regrouped unordered _ same := check_regrouped there unordered now o same

end Broker

/-! ### A queue with a hidden message, and a call that is broken off -/

namespace Sample

/-- A message of a group. -/
def note (group : String) : Outbound where
  body := "note"
  group := some group

/-- Five notes of three groups have been sent, and the first is hidden by a delivery. -/
def crowded : Broker :=
  let sent := ["bills", "bills", "letters", "letters", "plans"].foldl
    (fun b group => b.after 0 (.send cabinet (note group))) furnished
  sent.after 0 (.check cabinet { glance with maxMessages := 1 })

/-- The notes as they are kept. -/
def notes : Queue :=
  (crowded.queue? cabinet.url).get (by decide +kernel)

end Sample

namespace Broker

/-- The hidden bill keeps back the other bill, and the first letter keeps back the second, but the
plan behind them is handed out. -/
theorem check_takes_of_notes :
    (Sample.notes.taken 5 2).map (·.2) = [2, 4] ∧
    ∃ b', Sample.crowded.check 5 Sample.cabinet { Sample.glance with maxMessages := 2 } =
      (.ok (Queue.batchOf 6 (Sample.notes.taken 5 2)), b') ∧
      (b'.messages Sample.cabinet.url).map (·.visibleAt) = [10, 0, 15, 0, 15] := by
  have there : Sample.crowded.queue? Sample.cabinet.url = some Sample.notes := by decide +kernel
  have takes := check_takes there 5 { Sample.glance with maxMessages := 2 }
  exact ⟨by decide +kernel, _, takes.hands_out (.inr (by decide)), by decide +kernel⟩

/-- A receive call that would hide the message beyond the clock hands out nothing, although the
message can be received and is taken, and the message has been changed. -/
theorem overtime_hands_out_nothing : (∃ log, Reached log Sample.stocked) ∧
    ∃ queue m, Sample.stocked.queue? Sample.window.url = some queue ∧
      queue.taken 0 Sample.forever.maxMessages = [(m, 0)] ∧
      (Sample.stocked.check 0 Sample.window Sample.forever).1 = .error .beyondClock ∧
      (Sample.stocked.check 0 Sample.window Sample.forever).2.messages Sample.window.url =
        [{ m with receiveCount := 1 }] ∧ m.receiveCount = 0 :=
  ⟨⟨_, (Reached.start.call 0 (.create Sample.counter)).call 0
    (.send Sample.window { body := "parcel" })⟩, _, _, rfl, rfl, rfl, rfl, rfl⟩

end Broker

end Courier
