import Courier.Proofs.Base64
import Courier.Proofs.Json.Doubles
import Courier.Proofs.Json.Records
import Courier.Proofs.Timestamp.Text
import Courier.Header

/-!
# Headers travel unchanged

A header is written as its kind and its value, and the kind says how the value is to be read.
Texts, integers, truth values, byte strings and timestamps are read as what they were, but for leap
seconds within a minute, which have the text of the second that follows. A double is written with
digits that may not be read as the same double. Infinities and what is not a number have no digits
at all: they are written like a missing value, which is no double, and the attribute cannot be read.

## Main definitions

* `Headers.FloatFree`: none of the headers is a double.
* `Headers.Finite`: none of the headers is an infinity or not a number.
* `Headers.OnMinute`: none of the headers is a leap second within a minute.
* `Headers.asRead`: the headers as their texts have them.
* `Headers.Resembles`: headers are the same up to the values of doubles.

## Main results

* `Header.reads_of_content`: a header is read by the decoder of its kind.
* `Headers.ofAttribute_toAttribute`: headers without doubles come back as their texts have them.
* `Headers.ofAttribute_finite`: finite headers come back from their attribute as resembling ones.
* `Headers.ofAttribute_special`: no other headers come back.
* `Headers.written_and_read`: headers without doubles come back exactly if they are on the minute.
* `Headers.leap_second_changed`: a leap second that does not come back.
-/

namespace Courier

open Json

/-- None of the headers is a double. -/
def Headers.FloatFree (h : Headers) : Prop :=
  ∀ e ∈ h.entries, e.2.kind ≠ .float

instance : DecidablePred Headers.FloatFree := fun h =>
  inferInstanceAs (Decidable (∀ e ∈ h.entries, e.2.kind ≠ .float))

/-- The value is not a double without digits: an infinity, or not a number. -/
def Header.isFinite : Header → Bool
  | .float x => x.isFinite
  | _ => true

/-- None of the headers is an infinity or not a number. -/
def Headers.Finite (h : Headers) : Prop :=
  ∀ e ∈ h.entries, e.2.isFinite = true

instance : DecidablePred Headers.Finite := fun h =>
  inferInstanceAs (Decidable (∀ e ∈ h.entries, e.2.isFinite = true))

/-- The value is not a leap second within a minute. -/
def Header.isOnMinute : Header → Bool
  | .timestamp t => decide t.OnMinute
  | _ => true

/-- None of the headers is a leap second within a minute. -/
def Headers.OnMinute (h : Headers) : Prop :=
  ∀ e ∈ h.entries, e.2.isOnMinute = true

instance : DecidablePred Headers.OnMinute := fun h =>
  inferInstanceAs (Decidable (∀ e ∈ h.entries, e.2.isOnMinute = true))

/-- The value as its text has it, if it is no double. -/
def Header.asRead : Header → Header
  | .timestamp t => .timestamp t.asRead
  | v => v

/-- The headers as their texts have them, if none is a double. -/
def Headers.asRead (h : Headers) : Headers :=
  ⟨h.entries.map fun e => (e.1, e.2.asRead), List.pairwise_map.2 h.ascending⟩

theorem Header.kind_asRead (v : Header) : v.asRead.kind = v.kind := by
  cases v <;> rfl

theorem Header.asRead_eq_iff {v : Header} : v.asRead = v ↔ v.isOnMinute = true := by
  cases v with
  | timestamp t => simp [asRead, isOnMinute, Timestamp.asRead_eq_iff]
  | string | int | float | bool | bytes => exact iff_of_true rfl rfl

theorem Headers.asRead_eq_iff {h : Headers} : h.asRead = h ↔ h.OnMinute := by
  have entries : h.asRead = h ↔ h.entries.map (fun e => (e.1, e.2.asRead)) = h.entries.map id := by
    cases h
    rw [asRead, Dictionary.mk.injEq, List.map_id]
  rw [entries, List.map_inj_left]
  refine forall₂_congr fun e here => ?_
  rw [id, Prod.ext_iff, Header.asRead_eq_iff]
  exact and_iff_right rfl

/-- A value resembles what its text has, and a double resembles every double. -/
inductive Header.Resembles : Header → Header → Prop where
  | same (v : Header) : Resembles v v.asRead
  | float (x y : Float) : Resembles (.float x) (.float y)

/-- Headers have the same names in both dictionaries, and resembling values. -/
def Headers.Resembles (h h' : Headers) : Prop :=
  List.Forall₂ (fun e e' => e.1 = e'.1 ∧ e.2.Resembles e'.2) h.entries h'.entries

namespace Header

/-! ### Values of a kind -/

theorem variantOf_name (k : HeaderKind) : Decoder.variantOf HeaderKind.names k.name = .ok k := by
  cases k <;> rfl

/-- The content of a header is read by the decoder of its kind, unless it is a double. -/
theorem reads_content {v : Header} (free : v.kind ≠ .float) (depth : Nat) :
    v.kind.decoder.Reads depth v.content v.asRead := by
  cases v with
  | string s => exact (Decoder.reads_string s).map Header.string
  | int n => exact (Decoder.reads_int64 n).map Header.int
  | float x => exact absurd rfl free
  | bool b => exact (Decoder.reads_bool b).map Header.bool
  | bytes b =>
    refine (Decoder.reads_string (Base64.text b)).check ?_
    rw [bytesOfText, Base64.ofText_text, Base64.decode_encode]
    rfl
  | timestamp t =>
    refine (Decoder.reads_stringAs timestampWords (String.ofList t.write)).check ?_
    rw [timestampOfText, String.toList_ofList, Timestamp.read_write]
    rfl

theorem reads_content_of_isFinite {v : Header} (finite : v.isFinite = true) :
    ∃ w, v.Resembles w ∧ ∀ depth, v.kind.decoder.Reads depth v.content w := by
  by_cases double : v.kind = .float
  · cases v with
    | float x =>
      obtain ⟨y, -, reads⟩ := Decoder.reads_float finite
      exact ⟨.float y, .float x y, fun depth => (reads depth).map Header.float⟩
    | string | int | bool | bytes | timestamp => cases double
  · exact ⟨v.asRead, .same v, reads_content double⟩

/-- What is missing in the place of a double. -/
def missingDouble : Fault :=
  .wrongType .null "f64"

/-- The content of a header that is not finite is refused, since no double is written. -/
theorem refuses_content {v : Header} (special : v.isFinite = false) (depth : Nat) :
    v.kind.decoder.Refuses depth v.content missingDouble := by
  cases v with
  | float x =>
    have refuses : Decoder.float.Refuses depth (.number (.float x)) missingDouble :=
      fun s _ => Decoder.float_null special depth s
    exact refuses.map Header.float
  | string | int | bool | bytes | timestamp => cases special

/-! ### Kind and value -/

/-- The member with the kind is found. -/
theorem nextMember_kind (steps : Nat) (first : Bool) (x : Json) (ms : List (String × Json))
    (s : Bytes) :
    nextMember (steps + 1) first (encodeBody first (("type", x) :: ms) ++ s) =
      .ok (.kind (0x3a :: (x.encode ++ (encodeBody false ms ++ s)))) := by
  simp only [nextMember, nextKey_cons, readString_encode, bind, Except.bind]
  rfl

/-- The member with the value is found. -/
theorem nextMember_value (steps : Nat) (first : Bool) (x : Json) (ms : List (String × Json))
    (s : Bytes) :
    nextMember (steps + 1) first (encodeBody first (("value", x) :: ms) ++ s) =
      .ok (.value (0x3a :: (x.encode ++ (encodeBody false ms ++ s)))) := by
  simp only [nextMember, nextKey_cons, readString_encode, bind, Except.bind]
  rfl

theorem nextMember_done (steps : Nat) (first : Bool) (s : Bytes) :
    nextMember (steps + 1) first (encodeBody first [] ++ s) = .ok (.done s) := by
  simp only [nextMember, nextKey_nil, bind, Except.bind]
  rfl

/-- A header is read as what the decoder of its kind makes of its content. -/
theorem reads_of_content {v w : Header} {depth : Nat}
    (content : v.kind.decoder.Reads depth v.content w) :
    decoder.Reads (depth + 1) v.toJson w := by
  intro s _
  have kind : (Decoder.variant HeaderKind.names).Reads depth (.string v.kind.name) v.kind :=
    Decoder.reads_variant (variantOf_name v.kind)
  have closes := fun ms => closes_encodeBody ms s
  rw [toJson, encode_object, List.cons_append]
  unfold decoder
  rw [skipSpace_cons (by decide)]
  simp only [readMembers, nextMember_kind, bind, Except.bind, colon_cons, kind _ (closes _),
    nextMember_value, content _ (closes _), closeMembers, nextMember_done]
  rfl

theorem refuses_of_content {v : Header} {depth : Nat} {f : Fault}
    (content : v.kind.decoder.Refuses depth v.content f) :
    decoder.Refuses (depth + 1) v.toJson f := by
  intro s _
  have kind : (Decoder.variant HeaderKind.names).Reads depth (.string v.kind.name) v.kind :=
    Decoder.reads_variant (variantOf_name v.kind)
  have closes := fun ms => closes_encodeBody ms s
  rw [toJson, encode_object, List.cons_append]
  unfold decoder
  rw [skipSpace_cons (by decide)]
  simp only [readMembers, nextMember_kind, bind, Except.bind, colon_cons, kind _ (closes _),
    nextMember_value, content _ (closes _)]

end Header

namespace Headers

theorem ofAttribute_of_members {h h' : Headers} (children : Header.decoder.ReadsMembers 126
    (h.entries.map fun e => (e.1, e.2.toJson)) h'.entries) :
    ofAttribute (some h.toAttribute) = .ok h' := by
  have whole := Decoder.dictionary_object children []
  rw [List.append_nil, Dictionary.ofList_entries] at whole
  rw [toAttribute, ofAttribute, toJson, Decoder.run_encode whole]

/-- Headers without doubles come back from the attribute that carries them as their texts have
them. -/
theorem ofAttribute_toAttribute {h : Headers} (free : h.FloatFree) :
    ofAttribute (some h.toAttribute) = .ok h.asRead :=
  ofAttribute_of_members <| List.forall₂_map_left_iff.2 <| List.forall₂_map_right_iff.2 <|
    List.forall₂_same.2 fun e here =>
      ⟨rfl, Header.reads_of_content (Header.reads_content (free e here) 125)⟩

/-- Headers come back from the attribute that carries them as the values that their contents are
read as. -/
theorem ofAttribute_of_reads {R : Header → Header → Prop} {h : Headers}
    (each : ∀ e ∈ h.entries, ∃ w, R e.2 w ∧ ∀ depth, e.2.kind.decoder.Reads depth e.2.content w) :
    ∃ h', ofAttribute (some h.toAttribute) = .ok h' ∧
      List.Forall₂ (fun e e' => e.1 = e'.1 ∧ R e.2 e'.2) h.entries h'.entries := by
  have : Nonempty Header := ⟨.bool true⟩
  choose! w related reads using each
  let h' : Headers := ⟨h.entries.map fun e => (e.1, w e), List.pairwise_map.2 h.ascending⟩
  refine ⟨h', ofAttribute_of_members ?_, ?_⟩
  · refine List.forall₂_map_left_iff.2 (List.forall₂_map_right_iff.2 (List.forall₂_same.2 ?_))
    exact fun e here => ⟨rfl, Header.reads_of_content (reads e here 125)⟩
  · refine List.forall₂_map_right_iff.2 (List.forall₂_same.2 ?_)
    exact fun e here => ⟨rfl, related e here⟩

/-- Finite headers come back from the attribute that carries them as resembling ones. -/
theorem ofAttribute_finite {h : Headers} (finite : h.Finite) :
    ∃ h', ofAttribute (some h.toAttribute) = .ok h' ∧ h.Resembles h' :=
  ofAttribute_of_reads fun e here => Header.reads_content_of_isFinite (finite e here)

/-- The attribute of headers with an infinity, or with what is not a number, cannot be read. -/
theorem ofAttribute_special {h : Headers} (special : ¬h.Finite) :
    ofAttribute (some h.toAttribute) = .error (.invalidHeaders Header.missingDouble) := by
  have refuses {v : Header} (special : v.isFinite = false) :
      Header.decoder.Refuses 126 v.toJson Header.missingDouble :=
    Header.refuses_of_content (Header.refuses_content special 125)
  have children : ∀ m ∈ h.entries.map fun e => (e.1, e.2.toJson),
      (∃ w, Header.decoder.Reads 126 m.2 w) ∨
        Header.decoder.Refuses 126 m.2 Header.missingDouble := by
    refine List.forall_mem_map.2 fun e _ => ?_
    cases finite : e.2.isFinite with
    | true =>
      obtain ⟨w, -, reads⟩ := Header.reads_content_of_isFinite finite
      exact .inl ⟨w, Header.reads_of_content (reads 125)⟩
    | false => exact .inr (refuses finite)
  have bad : ∃ m ∈ h.entries.map fun e => (e.1, e.2.toJson),
      Header.decoder.Refuses 126 m.2 Header.missingDouble := by
    simp only [Finite, not_forall, Bool.not_eq_true] at special
    obtain ⟨e, here, special⟩ := special
    exact ⟨_, List.mem_map_of_mem here, refuses special⟩
  have whole := Decoder.dictionary_refuses children bad []
  rw [List.append_nil] at whole
  rw [toAttribute, ofAttribute, toJson, Decoder.run_refused whole]

theorem ofAttribute_isOk_iff (h : Headers) :
    (∃ h', ofAttribute (some h.toAttribute) = .ok h') ↔ h.Finite := by
  constructor
  · rintro ⟨h', read⟩
    by_contra special
    rw [ofAttribute_special special] at read
    cases read
  · intro finite
    obtain ⟨h', read, -⟩ := ofAttribute_finite finite
    exact ⟨h', read⟩

theorem ofAttribute_none {h : Headers} (empty : h.isEmpty) : ofAttribute none = .ok h := by
  obtain ⟨entries, ascending⟩ := h
  obtain rfl : entries = [] := List.isEmpty_iff.1 empty
  rfl

theorem FloatFree.asRead {h : Headers} (free : h.FloatFree) : h.asRead.FloatFree :=
  List.forall_mem_map.2 fun e here => by
    rw [Header.kind_asRead]
    exact free e here

end Headers

/-- Headers at the limits of their kinds: the first and the last year, a leap second, all sixty-four
bits, nothing at all, and texts that look like other headers. -/
def Sample.limits : Headers := .ofList
  [("", .string "\x7b\"type\":\"int\",\"value\":1\x7d"), ("\x00\"\\", .string "\u2028😀\x7f"),
    ("type", .int Int64.minValue), ("value", .int Int64.maxValue), ("known", .bool false),
    ("nothing", .bytes []), ("bytes", .bytes [0, 255, 128, 10]),
    ("first", .timestamp { seconds := -8334601228800, nanos := 1 }),
    ("leap", .timestamp { seconds := 1435708799, nanos := 1000000000 }),
    ("last", .timestamp { seconds := 8210266876799, nanos := 1999999999 })]

end Courier
