import Courier.Pipeline.Basic
import Mathlib.Data.List.Nodup
import Mathlib.Data.List.Perm.Subperm

/-!
# Records of unsettled deliveries

The table keeps one record for a message, so a record is found by its message, and to settle a
delivery takes away its own record and no other.

## Main definitions

* `Unsettled.Distinct`: no message has two records.
* `Envelope.record`: the record of a delivery.

## Main results

* `Unsettled.mem_insert`, `Unsettled.mem_settle`: what the operations do to the records.
* `Unsettled.mem_settleEach`: what the end of a run does to them.
* `Unsettled.size_le`: records of different messages are no more than what they belong to.
-/

namespace Courier

/-- The record of a delivery. -/
def Envelope.record (e : Envelope) : MessageId × Receipt :=
  (e.id, e.receipt)

namespace Unsettled

/-- No message has two records. -/
def Distinct (t : Unsettled) : Prop :=
  (t.records.map (·.1)).Nodup

theorem distinct_empty : Distinct ∅ :=
  List.nodup_nil

variable {t : Unsettled} {id : MessageId} {receipt : Receipt} {record : MessageId × Receipt}

private theorem lookup_eq_some {records : List (MessageId × Receipt)}
    (h : (records.map (·.1)).Nodup) :
    records.lookup id = some receipt ↔ (id, receipt) ∈ records := by
  induction records with
  | nil => simp
  | cons r records ih =>
    obtain ⟨id', receipt'⟩ := r
    obtain ⟨new, rest⟩ := List.nodup_cons.1 h
    by_cases same : id = id'
    · subst same
      have absent : (id, receipt) ∉ records := fun mem =>
        new (List.mem_map.2 ⟨(id, receipt), mem, rfl⟩)
      simp [absent, eq_comm]
    · have other : (id == id') = false := by simp [same]
      simp [List.lookup_cons, other, same, ih rest]

theorem find?_eq_some (h : t.Distinct) : t.find? id = some receipt ↔ (id, receipt) ∈ t.records :=
  lookup_eq_some h

/-- A new record replaces that of the same message. -/
theorem mem_insert :
    record ∈ (t.insert id receipt).records ↔
      record = (id, receipt) ∨ record ∈ t.records ∧ record.1 ≠ id := by
  simp [insert]

theorem Distinct.insert (h : t.Distinct) : (t.insert id receipt).Distinct := by
  have rest : ((t.records.filter fun r => r.1 != id).map (·.1)).Nodup :=
    h.sublist (List.filter_sublist.map _)
  refine List.nodup_cons.2 ⟨fun mem => ?_, rest⟩
  obtain ⟨r, hr, same⟩ := List.mem_map.1 mem
  have other : r.1 ≠ id := by simpa using (List.mem_filter.1 hr).2
  exact other same

/-- To settle a delivery takes away its record and nothing else. -/
theorem mem_settle (h : t.Distinct) :
    record ∈ (t.settle id receipt).records ↔ record ∈ t.records ∧ record ≠ (id, receipt) := by
  unfold settle
  split
  · next current =>
    have own : (id, receipt) ∈ t.records := (find?_eq_some h).1 (of_decide_eq_true current)
    simp only [List.mem_filter, bne_iff_ne]
    refine and_congr_right fun mem => ⟨fun other same => other (by rw [same]), ?_⟩
    -- The record of the message is the only one, so another record is one of another message.
    intro other same
    exact other (List.inj_on_of_nodup_map h mem own same)
  · next stale =>
    refine ⟨fun mem => ⟨mem, ?_⟩, And.left⟩
    rintro rfl
    exact stale (decide_eq_true ((find?_eq_some h).2 mem))

theorem Distinct.settle (h : t.Distinct) : (t.settle id receipt).Distinct := by
  unfold Unsettled.settle
  split
  · exact h.sublist (List.filter_sublist.map _)
  · exact h

theorem Distinct.settleEach {es : List Envelope} (h : t.Distinct) :
    (es.foldl settleEnvelope t).Distinct := by
  induction es generalizing t with
  | nil => exact h
  | cons e es ih => exact ih h.settle

/-- To settle several deliveries takes away their records and nothing else. -/
theorem mem_settleEach {es : List Envelope} (h : t.Distinct) :
    record ∈ (es.foldl settleEnvelope t).records ↔
      record ∈ t.records ∧ ∀ e ∈ es, record ≠ e.record := by
  induction es generalizing t with
  | nil => simp
  | cons e es ih =>
    have first : record ∈ (t.settleEnvelope e).records ↔ record ∈ t.records ∧ record ≠ e.record :=
      mem_settle h
    have rest := ih (t := t.settleEnvelope e) h.settle
    rw [List.foldl_cons, rest, first, List.forall_mem_cons, and_assoc]

/-- Records that belong to envelopes of a list are no more than these. -/
theorem size_le (h : t.Distinct) {es : List Envelope}
    (belong : ∀ r ∈ t.records, ∃ e ∈ es, e.record = r) : t.size ≤ es.length := by
  have within : t.records ⊆ es.map Envelope.record := fun r hr => List.mem_map.2 (belong r hr)
  have nodup : t.records.Nodup := List.Nodup.of_map _ h
  calc t.size ≤ (es.map Envelope.record).length := (nodup.subperm within).length_le
    _ = es.length := List.length_map ..

end Unsettled

end Courier
