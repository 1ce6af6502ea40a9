import Courier.Proofs.Registry
import Courier.Proofs.Sqs
import Mathlib.Data.Nat.Digits.Defs

/-!
# Batches of the service

Any part of a received message may be missing or make no sense. A message without an identifier, or
with an empty one, or without a receipt is left out of its batch, and all others are the deliveries
that they would be if they came alone. Nothing else keeps a message from being delivered: an
attribute that has no value of its type is left out, a body that is missing is empty, and where the
number of the delivery cannot be read it is one.

The delivery is described here by the message alone, without the functions that make it.

## Main definitions

* `Decimal.Spells`, `Decimal.StandsFor`: a text has digits, and stands for their value.
* `Sqs.WireAttribute.Means`: the attribute that the service means.
* `Sqs.Message.Addressed`: a message has an identifier and a receipt.
* `Sqs.Message.Delivers`: the delivery that a message is.

## Main results

* `Sqs.Message.received_eq_ok_iff`: the delivery that is made of a message.
* `Sqs.collects_each_alone`: a batch is worked off message by message.
-/

namespace Courier

/-! ### Numbers -/

namespace Decimal

/-- A text consists of the digits `ds`, at least one, perhaps with a plus in front. -/
structure Spells (s : String) (ds : List Char) : Prop where
  text : s.toList = ds ∨ s.toList = '+' :: ds
  nonempty : ds ≠ []
  digits : ∀ d ∈ ds, d.isDigit = true

/-- A text stands for the natural number that its digits have as their value. -/
def StandsFor (s : String) (n : Nat) : Prop :=
  ∃ ds, Spells s ds ∧ Nat.ofDigits 10 (ds.reverse.map fun d => d.toNat - '0'.toNat) = n

theorem digitsValue_append (ds : List Char) (d : Char) :
    digitsValue (ds ++ [d]) = 10 * digitsValue ds + (d.toNat - '0'.toNat) := by
  simp [digitsValue]

theorem digitsValue_eq (ds : List Char) :
    digitsValue ds = Nat.ofDigits 10 (ds.reverse.map fun d => d.toNat - '0'.toNat) := by
  induction ds using List.reverseRecOn with
  | nil => rfl
  | append_singleton ds d ih =>
    rw [digitsValue_append, ih, List.reverse_append, List.reverse_singleton, List.singleton_append,
      List.map_cons, Nat.ofDigits_cons, Nat.add_comm]

theorem natural?_of_spells {s : String} {ds : List Char} (limit : Nat) (h : Spells s ds) :
    natural? limit s = if digitsValue ds < limit then some (digitsValue ds) else none := by
  have good : ¬(ds.isEmpty = true ∨ (!ds.all Char.isDigit) = true) := by
    simpa [h.nonempty] using h.digits
  -- Digits have no plus in front of them that could be taken away.
  have plain : ∀ cs, ds ≠ '+' :: cs := by
    rintro cs rfl
    exact absurd (h.digits '+' List.mem_cons_self) (by decide)
  rcases h.text with text | text
  all_goals
    simp only [natural?, text]
    exact if_neg good

theorem exists_spells {s : String} {limit n : Nat} (h : natural? limit s = some n) :
    ∃ ds, Spells s ds := by
  have spells (ds : List Char) (text : s.toList = ds ∨ s.toList = '+' :: ds)
      (h : (if ds.isEmpty = true ∨ (!ds.all Char.isDigit) = true then none
        else if digitsValue ds < limit then some (digitsValue ds) else none) = some n) :
      Spells s ds := by
    split at h
    · cases h
    · next good =>
      simp only [List.isEmpty_iff, Bool.not_eq_true', List.all_eq_false, not_or] at good
      exact ⟨text, good.1, by simpa using good.2⟩
  simp only [natural?] at h
  split at h
  · next cs text => exact ⟨cs, spells cs (.inr text) h⟩
  · exact ⟨s.toList, spells s.toList (.inl rfl) h⟩

theorem natural?_eq_some_iff {s : String} {limit n : Nat} :
    natural? limit s = some n ↔ StandsFor s n ∧ n < limit := by
  constructor
  · intro h
    obtain ⟨ds, spells⟩ := exists_spells h
    rw [natural?_of_spells limit spells] at h
    split at h
    · next fits =>
      cases h
      exact ⟨⟨ds, spells, (digitsValue_eq ds).symm⟩, fits⟩
    · cases h
  · rintro ⟨⟨ds, spells, rfl⟩, fits⟩
    rw [← digitsValue_eq] at fits ⊢
    rw [natural?_of_spells limit spells, if_pos fits]

end Decimal

theorem Dictionary.entries_ofList {α : Type} {es : List (String × α)}
    (ascending : es.Pairwise fun a b => a.1 < b.1) : (ofList es).entries = es :=
  entries_foldl_insert (d := ∅) ascending

namespace Sqs

/-! ### Attributes -/

namespace WireAttribute

/-- The attribute that the service means: a type that begins with `Binary` calls for bytes, one that
begins with `Number` for the text of a number, and any other for a text. -/
inductive Means (v : WireAttribute) : Attribute → Prop
  | binary {b} (type : "Binary".toList <+: v.dataType.toList) (value : v.bytes = some b) :
      Means v (.binary b)
  | number {s} (type : "Number".toList <+: v.dataType.toList) (value : v.text = some s) :
      Means v (.number s)
  | string {s} (noBytes : ¬"Binary".toList <+: v.dataType.toList)
      (noNumber : ¬"Number".toList <+: v.dataType.toList) (value : v.text = some s) :
      Means v (.string s)

variable {v : WireAttribute} {a : Attribute}

theorem hasType_iff {base : String} : v.hasType base = true ↔ base.toList <+: v.dataType.toList :=
  List.isPrefixOf_iff_prefix

theorem not_number_of_binary (binary : "Binary".toList <+: v.dataType.toList) :
    ¬"Number".toList <+: v.dataType.toList := by
  intro number
  obtain ⟨ending, type⟩ := binary
  obtain ⟨ending', type'⟩ := number
  cases type.trans type'.symm

theorem Means.attribute?_eq (h : v.Means a) : v.attribute? = some a := by
  cases h with
  | binary type value =>
    rw [attribute?, if_pos (hasType_iff.2 type), value]
    rfl
  | number type value =>
    have noBytes := mt hasType_iff.1 fun binary => not_number_of_binary binary type
    rw [attribute?, if_neg noBytes, if_pos (hasType_iff.2 type), value]
    rfl
  | string noBytes noNumber value =>
    rw [attribute?, if_neg (mt hasType_iff.1 noBytes), if_neg (mt hasType_iff.1 noNumber), value]
    rfl

theorem attribute?_eq_some_iff : v.attribute? = some a ↔ v.Means a := by
  refine ⟨fun h => ?_, Means.attribute?_eq⟩
  unfold attribute? at h
  split at h
  · next binary =>
    obtain ⟨b, value, rfl⟩ := Option.map_eq_some_iff.1 h
    exact .binary (hasType_iff.1 binary) value
  · next noBytes =>
    split at h
    · next number =>
      obtain ⟨s, value, rfl⟩ := Option.map_eq_some_iff.1 h
      exact .number (hasType_iff.1 number) value
    · next noNumber =>
      obtain ⟨s, value, rfl⟩ := Option.map_eq_some_iff.1 h
      exact .string (mt hasType_iff.2 noBytes) (mt hasType_iff.2 noNumber) value

end WireAttribute

/-! ### Messages -/

namespace Message

/-- A message has an identifier that is not empty, and a receipt. -/
def Addressed (m : Message) : Prop :=
  m.id ≠ none ∧ m.id ≠ some "" ∧ m.receipt ≠ none

instance (m : Message) : Decidable m.Addressed :=
  inferInstanceAs (Decidable (_ ∧ _ ∧ _))

/-- The number of a delivery: the one that the service gives, if it is a number of 32 bits, and else
one. -/
inductive Numbered (m : Message) : Nat → Prop
  | given {text n} (count : m.system.find? "ApproximateReceiveCount" = some text)
      (number : Decimal.StandsFor text n) (fits : n < 2 ^ 32) : Numbered m n
  | first (unread : ∀ text n, m.system.find? "ApproximateReceiveCount" = some text →
      Decimal.StandsFor text n → 2 ^ 32 ≤ n) : Numbered m 1

/-- The delivery that a message is. Its attributes are those that have a value of their type. -/
structure Delivers (m : Message) (r : Received) : Prop where
  id : m.id = some r.id.text
  receipt : m.receipt = some r.receipt.text
  body : r.body = m.body.getD ""
  attributes : ∀ name a, r.attributes.find? name = some a ↔
    ∃ v, m.attributes.find? name = some v ∧ v.Means a
  receiveCount : m.Numbered r.receiveCount.toNat

variable {m : Message} {r : Received}

theorem find?_kept {name : String} {a : Attribute} : m.kept.find? name = some a ↔
    ∃ v, m.attributes.find? name = some v ∧ v.Means a := by
  have ascending : (m.attributes.entries.filterMap fun x => x.2.attribute?.map (x.1, ·)).Pairwise
      fun a b => a.1 < b.1 := by
    refine m.attributes.ascending.filterMap _ fun x y before x' hx y' hy => ?_
    obtain ⟨a, -, rfl⟩ := Option.map_eq_some_iff.1 hx
    obtain ⟨b, -, rfl⟩ := Option.map_eq_some_iff.1 hy
    exact before
  have entries : m.kept.entries =
      m.attributes.entries.filterMap fun x => x.2.attribute?.map (x.1, ·) :=
    Dictionary.entries_ofList ascending
  rw [← Dictionary.mem_entries, entries, List.mem_filterMap]
  constructor
  · rintro ⟨⟨_, v⟩, mem, kept⟩
    obtain ⟨a, means, same⟩ := Option.map_eq_some_iff.1 kept
    cases same
    exact ⟨v, Dictionary.mem_entries.1 mem, WireAttribute.attribute?_eq_some_iff.1 means⟩
  · rintro ⟨v, found, means⟩
    refine ⟨(name, v), Dictionary.mem_entries.2 found, ?_⟩
    rw [WireAttribute.attribute?_eq_some_iff.2 means]
    rfl

theorem count?_eq_some_iff {n : Nat} :
    (m.system.find? receiveCountName).bind (Decimal.natural? UInt32.size) = some n ↔
      ∃ text, m.system.find? "ApproximateReceiveCount" = some text ∧
        Decimal.StandsFor text n ∧ n < 2 ^ 32 := by
  rw [Option.bind_eq_some_iff]
  exact exists_congr fun text => and_congr_right fun _ => Decimal.natural?_eq_some_iff

theorem numbered_iff {n : Nat} :
    ((m.system.find? receiveCountName).bind (Decimal.natural? UInt32.size)).getD 1 = n ↔
      m.Numbered n := by
  constructor
  · rintro rfl
    cases count : (m.system.find? receiveCountName).bind (Decimal.natural? UInt32.size) with
    | some k =>
      obtain ⟨text, given, number, fits⟩ := count?_eq_some_iff.1 count
      exact .given given number fits
    | none =>
      refine .first fun text n given number => Nat.le_of_not_lt fun fits => ?_
      cases count.symm.trans (count?_eq_some_iff.2 ⟨text, given, number, fits⟩)
  · intro h
    cases h with
    | given count number fits =>
      rw [count?_eq_some_iff.2 ⟨_, count, number, fits⟩]
      rfl
    | first unread =>
      cases count : (m.system.find? receiveCountName).bind (Decimal.natural? UInt32.size) with
      | none => rfl
      | some k =>
        obtain ⟨text, given, number, fits⟩ := count?_eq_some_iff.1 count
        exact absurd fits (Nat.not_lt.2 (unread text k given number))

theorem Numbered.lt {n : Nat} (h : m.Numbered n) : n < 2 ^ 32 := by
  cases h with
  | given _ _ fits => exact fits
  | first => decide

theorem receiveCount_eq_iff {n : UInt32} : m.receiveCount = n ↔ m.Numbered n.toNat := by
  have given := numbered_iff (m := m).1 rfl
  rw [← numbered_iff, ← UInt32.toNat_inj, receiveCount, Nat.toUInt32_eq,
    UInt32.toNat_ofNat_of_lt' given.lt]

theorem received_eq {id : MessageId} {receipt : String} (named : m.id = some id.text)
    (receipted : m.receipt = some receipt) :
    m.received = .ok ⟨id, ⟨receipt⟩, m.body.getD "", m.kept, m.receiveCount⟩ := by
  have id_eq : MessageId.ofText id.text = .ok id := dif_neg id.nonempty
  simp only [received, named, receipted, id_eq]

theorem Addressed.exists_received (h : m.Addressed) : ∃ r, m.received = .ok r := by
  obtain ⟨id, named⟩ := Option.ne_none_iff_exists'.1 h.1
  obtain ⟨receipt, receipted⟩ := Option.ne_none_iff_exists'.1 h.2.2
  have filled : id ≠ "" := fun empty => h.2.1 (empty ▸ named)
  have given : m.id = some (MessageId.mk id filled).text := named
  exact ⟨_, received_eq given receipted⟩

theorem addressed_of_received (h : m.received = .ok r) :
    m.id = some r.id.text ∧ m.receipt = some r.receipt.text := by
  simp only [received] at h
  split at h
  · cases h
  · next id receipt named =>
    split at h
    · cases h
    · cases h
    · next id' receipt id_eq receipted =>
      cases h
      simp only [MessageId.ofText] at id_eq
      split at id_eq
      · cases id_eq
      · cases id_eq
        exact ⟨named, receipted⟩

/-- The delivery that is made of a message is the one that it is. -/
theorem received_eq_ok_iff : m.received = .ok r ↔ m.Delivers r := by
  constructor
  · intro h
    obtain ⟨named, receipted⟩ := addressed_of_received h
    rw [received_eq named receipted] at h
    have same := Except.ok.inj h
    rw [← same]
    exact ⟨named, receipted, rfl, fun _ _ => find?_kept, receiveCount_eq_iff.1 rfl⟩
  · intro h
    have attributes : m.kept = r.attributes := Dictionary.eq_of_find? fun name =>
      Option.ext fun a => find?_kept.trans (h.attributes name a).symm
    rw [received_eq h.id h.receipt, attributes, receiveCount_eq_iff.2 h.receiveCount, ← h.body]

theorem Delivers.addressed (h : m.Delivers r) : m.Addressed := by
  refine ⟨?_, ?_, ?_⟩
  · rw [h.id]
    nofun
  · rw [h.id]
    exact fun same => r.id.nonempty (Option.some.inj same)
  · rw [h.receipt]
    nofun

end Message

/-! ### Batches -/

theorem collect_cons (m : Message) (batch : List Message) :
    collect (m :: batch) = collect [m] ++ collect batch :=
  List.filterMap_append (l := [m])

theorem collect_of_delivers {m : Message} {r : Received} (h : m.Delivers r) :
    collect [m] = [r] := by
  have made := Message.received_eq_ok_iff.2 h
  simp [collect, made, Except.toOption]

theorem delivers_of_mem_collect {m : Message} {r : Received} (h : r ∈ collect [m]) :
    m.Delivers r := by
  obtain ⟨m', own, made⟩ := List.mem_filterMap.1 h
  obtain rfl := List.mem_singleton.1 own
  cases outcome : m'.received with
  | error e =>
    rw [outcome] at made
    cases made
  | ok r' =>
    rw [outcome] at made
    cases made
    exact Message.received_eq_ok_iff.1 outcome

theorem collect_of_not_addressed {m : Message} (h : ¬m.Addressed) : collect [m] = [] :=
  List.eq_nil_iff_forall_not_mem.2 fun _ mem => h (delivers_of_mem_collect mem).addressed

theorem collect_eq_flatMap (batch : List Message) :
    collect batch = batch.flatMap fun m => collect [m] := by
  induction batch with
  | nil => rfl
  | cons m batch ih => rw [collect_cons, ih, List.flatMap_cons]

theorem collect_forall₂ (batch : List Message) :
    List.Forall₂ Message.Delivers (batch.filter fun m => m.Addressed) (collect batch) := by
  induction batch with
  | nil => exact .nil
  | cons m batch ih =>
    rw [collect_cons]
    by_cases addressed : m.Addressed
    · obtain ⟨r, made⟩ := addressed.exists_received
      have delivers := Message.received_eq_ok_iff.1 made
      rw [List.filter_cons_of_pos (by simpa using addressed), collect_of_delivers delivers]
      exact .cons delivers ih
    · rw [List.filter_cons_of_neg (by simpa using addressed), collect_of_not_addressed addressed]
      exact ih

/-- **A batch is worked off message by message.** Its deliveries are those of its messages that have
an identifier, not empty, and a receipt, each once and in the order of the batch; every one of them
is described by its message alone, and is the delivery that the message would be if it came alone. A
message without an identifier or a receipt leaves nothing. So batches can be joined and cut at any
place, and a receive call that gets a batch never fails for what is in it. -/
theorem collects_each_alone :
    (∀ batch : List Message,
      List.Forall₂ Message.Delivers (batch.filter fun m => m.Addressed) (collect batch) ∧
      collect batch = batch.flatMap fun m => collect [m]) ∧
    (∀ m r, m.Delivers r ↔ collect [m] = [r]) ∧
    (∀ m, ¬m.Addressed ↔ collect [m] = []) ∧
    (∀ batch batch', collect (batch ++ batch') = collect batch ++ collect batch') ∧
    ∀ (σ : Type) (t : Transport σ) (s s' : σ) q o v batch,
      (t (Call.receive q o).operation (Call.receive q o).input).run s = (.output v, s') →
      batchOf? v = some batch → (receive t q o).run s = (.ok (collect batch), s') := by
  refine ⟨fun batch => ⟨collect_forall₂ batch, collect_eq_flatMap batch⟩,
    fun m r => ⟨collect_of_delivers, fun alone => ?_⟩,
    fun m => ⟨collect_of_not_addressed, fun nothing addressed => ?_⟩,
    fun batch batch' => List.filterMap_append, ?_⟩
  · exact delivers_of_mem_collect (alone ▸ List.mem_singleton_self r)
  · obtain ⟨r, made⟩ := addressed.exists_received
    rw [collect_of_delivers (Message.received_eq_ok_iff.1 made)] at nothing
    cases nothing
  · intro σ t s s' q o v batch reply read
    exact receive_of_output reply read

end Sqs

/-! ### A batch with messages that lack parts -/

namespace Sample

/-- Attributes that have values of their types, of other types, and none. -/
def scraps : Dictionary Sqs.WireAttribute :=
  .ofList [("bare", { dataType := "String" }),
    ("count", { dataType := "Number.int", text := some "012" }),
    ("crossed", { dataType := "Binary", text := some "text" }),
    ("packed", { dataType := "Binary.gzip", bytes := some [31, 139] }),
    ("untyped", { dataType := "", text := some "" })]

/-- The only message of the batch that has an identifier and a receipt. -/
def remnant : Sqs.Message where
  id := some "remnant"
  receipt := some "receipt"
  attributes := scraps
  system := .ofList [(Sqs.receiveCountName, "+7")]

/-- Its delivery. -/
def salvage : Received where
  id := ⟨"remnant", by decide⟩
  receipt := ⟨"receipt"⟩
  body := ""
  attributes := .ofList
    [("count", .number "012"), ("packed", .binary [31, 139]), ("untyped", .string "")]
  receiveCount := 7

/-- A batch with two messages that have no identifier and one that has no receipt. -/
def jumble : List Sqs.Message :=
  [{ receipt := some "receipt" }, { id := some "", receipt := some "receipt" }, remnant,
    { id := some "lost" }]

/-- The batch as the service gives it. -/
def pallet : Json :=
  .object [("Messages", .array
    [.object [("ReceiptHandle", .string "receipt")],
      .object [("MessageId", .string ""), ("ReceiptHandle", .string "receipt")],
      .object [("MessageId", .string "remnant"), ("ReceiptHandle", .string "receipt"),
        ("Attributes", .object [(Sqs.receiveCountName, .string "+7")]),
        ("MessageAttributes", .object (scraps.entries.map fun e => (e.1, e.2.toJson)))],
      .object [("MessageId", .string "lost"), ("ReceiptHandle", .null)]])]

end Sample

namespace Sqs

/-- One message of the four is delivered, and the call does not fail. -/
theorem collects_each_alone_of_jumble : Sample.remnant.Delivers Sample.salvage ∧
    ((receive (fun _ _ => pure (.output Sample.pallet)) Sample.window Sample.glance).run ()).1 =
      .ok [Sample.salvage] := by
  obtain ⟨-, alone, -, -, replies⟩ := collects_each_alone
  have read : batchOf? Sample.pallet = some Sample.jumble := by decide +kernel
  have made : collect Sample.jumble = [Sample.salvage] := by decide +kernel
  refine ⟨(alone _ _).2 (by decide +kernel), ?_⟩
  rw [replies Unit _ () () _ _ _ _ rfl read, made]

end Sqs

end Courier
