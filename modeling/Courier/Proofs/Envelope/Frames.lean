import Courier.Envelope
import Courier.Proofs.Json.Records

/-!
# Frames that name a type

The name of the type of a message may have to be found in the payload, by a decoder that looks for
`@type` and passes over everything else. Of the written forms of JSON values it reads those of
objects in which `@type` occurs once, as a text, whatever else they hold and however deep that
nests; and since a record may also be given as an array of its fields, those of arrays of one text.
It reads no others.

The first byte of a written value tells what may be read there, so a value of another kind is
refused as soon as its turn comes.

## Main definitions

* `Json.Head`: the first byte of the written form of a value.
* `Json.Tags`: the values that are frames, and the types that they name.

## Main results

* `Json.Decoder.stringAs_eq_ok`: only the written form of a text is read as a text.
* `run_frameTag_iff`: of the written values just the frames name a type.
-/

namespace Courier

open Json

/-! ### The first byte of a written value -/

namespace Json

/-- The first byte of the written form of a value: texts, objects and arrays have their own. -/
inductive Head : Json → UInt8 → Prop
  | string (t : String) : Head (.string t) 0x22
  | object (ms : List (String × Json)) : Head (.object ms) 0x7b
  | array (xs : List Json) : Head (.array xs) 0x5b
  | plain {v b} (starts : Starts b) (text : b ≠ 0x22) : Head v b

theorem Head.visible {v : Json} {b : UInt8} (head : Head v b) : isSpace b = false ∧ b ≠ 0x5d := by
  cases head with
  | string | object | array => decide
  | plain starts => exact ⟨starts.1, starts.2.2.1⟩

theorem head_numeral {t : Bytes} (numeral : Numeral t) (v : Json) :
    ∃ b r, t = b :: r ∧ Head v b := by
  have digit : ∀ b ∈ digitBytes, b ≠ 0x22 := by
    simp only [digitBytes, List.forall_mem_cons]
    refine ⟨?_, ?_, ?_, ?_, ?_, ?_, ?_, ?_, ?_, ?_, List.forall_mem_nil _⟩ <;> decide
  cases numeral with
  | plain unsigned =>
    obtain ⟨b, r, rfl, mem⟩ := unsigned.head
    exact ⟨b, r, rfl, .plain (starts_digit b mem) (digit b mem)⟩
  | minus unsigned => exact ⟨_, _, rfl, .plain (by decide) (by decide)⟩

theorem head_encode (v : Json) : ∃ b r, v.encode = b :: r ∧ Head v b := by
  cases v with
  | null => exact ⟨_, _, rfl, .plain (by decide) (by decide)⟩
  | bool b => cases b <;> exact ⟨_, _, rfl, .plain (by decide) (by decide)⟩
  | string t => exact ⟨_, _, rfl, .string t⟩
  | array xs => cases xs <;> exact ⟨_, _, rfl, .array _⟩
  | object ms => exact ⟨_, _, encode_object ms, .object ms⟩
  | number n =>
    cases n with
    | whole n => exact head_numeral (numeral_encodeInt n) _
    | float x =>
      rw [encode, encodeNumber]
      split
      · exact head_numeral (numeral_write x) _
      · exact ⟨_, _, rfl, .plain (by decide) (by decide)⟩

/-- What was not expected is refused. -/
theorem mismatch_ne_ok {α : Type} (expected : String) (s : Bytes) (x : α) :
    mismatch expected s ≠ .ok x := by
  unfold mismatch
  cases scalar s <;> nofun

/-- Only the written form of a text is read as a text. -/
theorem Decoder.stringAs_eq_ok {expected t : String} {depth : Nat} {v : Json} {s rest : Bytes}
    (closes : Closes s) :
    stringAs expected depth (v.encode ++ s) = .ok (t, rest) ↔ v = .string t ∧ rest = s := by
  constructor
  · intro read
    obtain ⟨b, r, shape, head⟩ := v.head_encode
    by_cases text : b = 0x22
    · cases head with
      | string t' =>
        rw [reads_stringAs expected t' s closes] at read
        cases read
        exact ⟨rfl, rfl⟩
      | object | array => exact absurd text (by decide)
      | plain starts other => exact absurd text other
    · rw [shape, List.cons_append, stringAs, skipSpace_cons head.visible.1] at read
      split at read
      · next same => exact absurd (List.cons.inj same).1 text
      · exact absurd read (mismatch_ne_ok _ _ _)
  · rintro ⟨rfl, rfl⟩
    exact reads_stringAs expected t rest closes

/-- The members of an object that are called like a field. -/
def membersAt (name : String) (ms : List (String × Json)) : List (String × Json) :=
  ms.filter (·.1 = name)

/-- A written value is a frame that names a type: an object in which `@type` occurs once and is a
text, or an array of one text. -/
inductive Tags : Json → String → Prop
  | object {ms name} (one : membersAt "@type" ms = [("@type", .string name)]) :
      Tags (.object ms) name
  | array (name) : Tags (.array [.string name]) name

end Json

/-- Behind the name of the type a frame is read to its end, unless the name is given again. -/
theorem frameTag_membersFrom_given (depth : Nat) (name : String) (s : Bytes)
    (ms : List (String × Json)) {steps : Nat} (enough : ms.length < steps) :
    frameTag.membersFrom depth steps false ["@type"] name (encodeBody false ms ++ s) =
      if membersAt "@type" ms = [] then .ok (name, s) else .error (.duplicateField "@type") := by
  induction ms generalizing steps with
  | nil =>
    obtain ⟨steps, rfl⟩ := Nat.exists_eq_add_one_of_ne_zero (Nat.ne_zero_of_lt enough)
    simp only [Record.membersFrom, nextKey_nil]
    rfl
  | cons m ms ih =>
    obtain ⟨k, v⟩ := m
    obtain ⟨steps, rfl⟩ := Nat.exists_eq_add_one_of_ne_zero (Nat.ne_zero_of_lt enough)
    have behind := ih (Nat.lt_of_succ_lt_succ enough)
    by_cases tag : k = "@type"
    · subst tag
      have again : membersAt "@type" (("@type", v) :: ms) ≠ [] := by simp [membersAt]
      rw [if_neg again]
      simp only [Record.membersFrom, nextKey_cons, readString_encode, Record.readMember]
      rfl
    · have same : membersAt "@type" ((k, v) :: ms) = membersAt "@type" ms := by
        simp [membersAt, tag]
      have none_ : frameTag.fields.find? (fun f => f.name == k) = none := by
        simp [frameTag, Field.required, Ne.symm tag]
      rw [same, ← behind]
      simp only [Record.membersFrom, nextKey_cons, readString_encode, Record.readMember, none_,
        colon_cons, bind, Except.bind, skipValue_encode _ (closes_encodeBody ms s), pure,
        Except.pure]

/-- Up to the name of the type a frame is passed over. -/
theorem frameTag_membersFrom {depth : Nat} {name : String} {s rest : Bytes}
    {ms : List (String × Json)} {steps : Nat} (enough : ms.length < steps) (first : Bool) :
    frameTag.membersFrom depth steps first [] "" (encodeBody first ms ++ s) = .ok (name, rest) ↔
      membersAt "@type" ms = [("@type", .string name)] ∧ rest = s := by
  -- Members of other names are passed over, so the first one that is left decides.
  induction ms generalizing steps first with
  | nil =>
    obtain ⟨steps, rfl⟩ := Nat.exists_eq_add_one_of_ne_zero (Nat.ne_zero_of_lt enough)
    have missing : Record.missing? frameTag.fields [] =
        some (.required "@type" .string fun name _ => name) := rfl
    simp [Record.membersFrom, nextKey_nil, missing, membersAt]
  | cons m ms ih =>
    obtain ⟨k, v⟩ := m
    obtain ⟨steps, rfl⟩ := Nat.exists_eq_add_one_of_ne_zero (Nat.ne_zero_of_lt enough)
    have fewer : ms.length < steps := Nat.lt_of_succ_lt_succ enough
    have behind := ih fewer false
    by_cases tag : k = "@type"
    · subst tag
      have found : frameTag.fields.find? (fun f => f.name == "@type") =
          some (.required "@type" .string fun name _ => name) := rfl
      have here : membersAt "@type" (("@type", v) :: ms) =
          ("@type", v) :: membersAt "@type" ms := by simp [membersAt]
      rw [here]
      simp only [Record.membersFrom, nextKey_cons, readString_encode, Record.readMember, found,
        List.contains_nil, Bool.false_eq_true, ↓reduceIte, colon_cons, bind, Except.bind,
        Field.required, Decoder.map, pure, Except.pure]
      have closes := closes_encodeBody ms s
      cases read : Decoder.string depth (v.encode ++ (encodeBody false ms ++ s)) with
      | error fault =>
        have other : v ≠ .string name := fun text => by
          cases read.symm.trans ((Decoder.stringAs_eq_ok closes).2 ⟨text, rfl⟩)
        simp [Except.map, other]
      | ok found =>
        obtain ⟨t, left⟩ := found
        obtain ⟨rfl, rfl⟩ := (Decoder.stringAs_eq_ok closes).1 read
        simp only [Except.map, frameTag_membersFrom_given depth t s ms fewer]
        by_cases once : membersAt "@type" ms = []
        · simp [once, eq_comm]
        · simp [once]
    · have same : membersAt "@type" ((k, v) :: ms) = membersAt "@type" ms := by
        simp [membersAt, tag]
      have none_ : frameTag.fields.find? (fun f => f.name == k) = none := by
        simp [frameTag, Field.required, Ne.symm tag]
      rw [same, ← behind]
      simp only [Record.membersFrom, nextKey_cons, readString_encode, Record.readMember, none_,
        colon_cons, bind, Except.bind, skipValue_encode _ (closes_encodeBody ms s), pure,
        Except.pure]

/-- Of an array a frame takes the one item, if it is a text. -/
theorem frameTag_itemsFrom {depth : Nat} {name : String} {rest : Bytes} (x : Json)
    (xs : List Json) :
    frameTag.itemsFrom depth frameTag.fields 0 true "" (x.encode ++ encodeItems xs) =
        .ok (name, rest) ↔ x :: xs = [.string name] ∧ rest = [] := by
  have closes : Closes (encodeItems xs) := by
    have all := closes_encodeItems xs []
    rwa [List.append_nil] at all
  have item : nextItem true (x.encode ++ encodeItems xs) =
      .ok (.more (x.encode ++ encodeItems xs)) := by
    obtain ⟨b, r, shape, head⟩ := x.head_encode
    rw [shape, List.cons_append, nextItem, skipSpace_cons head.visible.1]
    split
    · next same => cases same
    · next same => exact absurd (List.cons.inj same).1 head.visible.2
    · next same => rw [if_pos rfl, same]
  have fields : frameTag.fields = [.required "@type" .string fun name _ => name] := rfl
  rw [fields, Record.itemsFrom, item]
  simp only [Field.required, Decoder.map]
  cases read : Decoder.string depth (x.encode ++ encodeItems xs) with
  | error fault =>
    have other : x ≠ .string name := fun text => by
      cases read.symm.trans ((Decoder.stringAs_eq_ok closes).2 ⟨text, rfl⟩)
    simp [Except.map, other]
  | ok found =>
    obtain ⟨t, left⟩ := found
    obtain ⟨rfl, rfl⟩ := (Decoder.stringAs_eq_ok closes).1 read
    simp only [Except.map, Record.itemsFrom]
    cases xs with
    | nil =>
      have closed : closeArray (encodeItems []) = .ok [] := rfl
      simp [closed, eq_comm]
    | cons y ys =>
      have open_ : closeArray (encodeItems (y :: ys)) = .error .malformed := by
        rw [encodeItems, List.cons_append, closeArray, skipSpace_cons (by decide)]
        rfl
      simp [open_]

theorem frameTag_plain {b : UInt8} (starts : Starts b) (s : Bytes) (x : String × Bytes) :
    frameTag.decoder depthLimit (b :: s) ≠ .ok x := by
  obtain ⟨space, bracket, -, brace⟩ := starts
  unfold Record.decoder
  rw [skipSpace_cons space]
  split
  · next same _ => exact absurd (List.cons.inj same).1 brace
  · next same _ => exact absurd (List.cons.inj same).1 bracket
  · next same _ => exact absurd (List.cons.inj same).1 brace
  · next same _ => exact absurd (List.cons.inj same).1 bracket
  · exact mismatch_ne_ok _ _ _

theorem frameTag_decoder_iff (v : Json) (name : String) (rest : Bytes) :
    frameTag.decoder depthLimit v.encode = .ok (name, rest) ↔ v.Tags name ∧ rest = [] := by
  obtain ⟨b, r, shape, head⟩ := v.head_encode
  cases head with
  | string t =>
    rw [shape]
    exact ⟨fun read => absurd read (mismatch_ne_ok _ _ _), fun both => nomatch both.1⟩
  | plain starts text =>
    rw [shape]
    refine ⟨fun read => absurd read (frameTag_plain starts _ _), fun both => ?_⟩
    obtain ⟨tags, -⟩ := both
    cases tags with
    | object one =>
      rw [encode_object] at shape
      exact absurd (List.cons.inj shape).1.symm starts.2.2.2
    | array => exact absurd (List.cons.inj shape).1.symm starts.2.1
  | object ms =>
    have inside : frameTag.decoder depthLimit (object ms).encode =
        frameTag.membersFrom 126 ((encodeBody true ms).length + 1) true [] ""
          (encodeBody true ms ++ []) := by
      rw [encode_object, List.append_nil]
      rfl
    have enough : ms.length < (encodeBody true ms).length + 1 :=
      Nat.lt_succ_of_lt (length_encodeBody true ms)
    rw [inside, frameTag_membersFrom enough true]
    exact and_congr_left fun _ => ⟨.object, fun | .object one => one⟩
  | array xs =>
    cases xs with
    | nil =>
      refine ⟨fun read => ?_, fun both => nomatch both.1⟩
      cases read
    | cons x xs =>
      have inside : frameTag.decoder depthLimit (array (x :: xs)).encode =
          frameTag.itemsFrom 126 frameTag.fields 0 true "" (x.encode ++ encodeItems xs) := by
        rw [encode]
        rfl
      rw [inside, frameTag_itemsFrom]
      refine and_congr_left fun _ => ⟨fun same => same ▸ .array name, fun tags => ?_⟩
      cases tags
      rfl

/-- Of the written values just the frames name a type. -/
theorem run_frameTag_iff (v : Json) (name : String) :
    frameTag.decoder.run v.encode = .ok name ↔ v.Tags name := by
  constructor
  · intro read
    cases decoded : frameTag.decoder depthLimit v.encode with
    | error fault =>
      rw [Decoder.run_refused decoded] at read
      cases read
    | ok found =>
      obtain ⟨found, rest⟩ := found
      obtain ⟨tags, rfl⟩ := (frameTag_decoder_iff v found rest).1 decoded
      rw [Decoder.run_encode decoded] at read
      cases read
      exact tags
  · intro tags
    exact Decoder.run_encode ((frameTag_decoder_iff v name []).2 ⟨tags, rfl⟩)

end Courier
