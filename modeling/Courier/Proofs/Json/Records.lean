import Courier.Json.Record
import Courier.Proofs.Json.Skipping
import Mathlib.Data.List.Forall2

/-!
# Written objects are read back

A decoder reads a value if it takes the written form of the value, wherever a comma or a bracket
follows it, to what the value stands for. Texts, truth values and numbers are read, an object is
read as a dictionary of what its members are read as, and a record takes the members that it has
fields for and passes over all others.

## Main definitions

* `Json.Decoder.Reads`, `Json.Decoder.Refuses`: a decoder reads the written form of a value, or
  refuses it.
* `Json.Record.Takes`: the members of an object and what the fields of a record make of them.

## Main results

* `Json.Decoder.reads_string`, `Json.Decoder.reads_int64`, `Json.Decoder.reads_bool`,
  `Json.Decoder.reads_variant`: scalar values are read.
* `Json.Decoder.dictionary_object`: an object is read as a dictionary.
* `Json.Decoder.dictionary_refuses`: an object with a member that is refused is no dictionary.
* `Json.Record.decoder_object`: an object is read as a record.
-/

namespace Courier.Json

/-- The decoder reads the written form of `v` as `x` and leaves what follows. -/
def Decoder.Reads {α : Type} (d : Decoder α) (depth : Nat) (v : Json) (x : α) : Prop :=
  ∀ s, Closes s → d depth (v.encode ++ s) = .ok (x, s)

/-- The decoder refuses the written form of `v` with the fault `f`. -/
def Decoder.Refuses {α : Type} (d : Decoder α) (depth : Nat) (v : Json) (f : Fault) : Prop :=
  ∀ s, Closes s → d depth (v.encode ++ s) = .error f

/-! ### Scalar values -/

namespace Decoder

variable {α β : Type} {depth : Nat} {v : Json}

theorem reads_stringAs (expected t : String) :
    (stringAs expected).Reads depth (.string t) t := by
  intro s _
  rw [encode, encodeString_append, stringAs, skipSpace_cons (by decide)]
  exact readString_encode t s

/-- A string is read as its text. -/
theorem reads_string (t : String) : string.Reads depth (.string t) t :=
  reads_stringAs _ t

theorem Reads.map {d : Decoder α} {x : α} (reads : d.Reads depth v x) (f : α → β) :
    (d.map f).Reads depth v (f x) := by
  intro s closes
  rw [Decoder.map, reads s closes]
  rfl

theorem Refuses.map {d : Decoder α} {fault : Fault} (refuses : d.Refuses depth v fault)
    (f : α → β) : (d.map f).Refuses depth v fault := by
  intro s closes
  rw [Decoder.map, refuses s closes]
  rfl

theorem Reads.check {d : Decoder α} {x : α} {y : β} {f : α → Except String β}
    (reads : d.Reads depth v x) (accepted : f x = .ok y) : (d.check f).Reads depth v y := by
  intro s closes
  rw [Decoder.check, reads s closes]
  simp only [bind, Except.bind, accepted]
  rfl

/-- A truth value is read. -/
theorem reads_bool (b : Bool) : bool.Reads depth (.bool b) b := by
  intro s _
  cases b <;> rfl

/-- The name of a variant is read as the variant. -/
theorem reads_variant {variants : List (String × α)} {name : String} {x : α}
    (known : variantOf variants name = .ok x) :
    (variant variants).Reads depth (.string name) x := by
  intro s _
  unfold variant
  rw [encode, encodeString_append, skipSpace_cons (by decide)]
  simp only [readString_encode, bind, Except.bind, known]
  rfl

end Decoder

theorem scalar_digit (s : Bytes) : ∀ b ∈ digitBytes, scalar (b :: s) =
    (readNumber false (b :: s)).map fun (n, rest) => (.number n, rest) := by
  simp only [digitBytes, List.forall_mem_cons]
  exact ⟨rfl, rfl, rfl, rfl, rfl, rfl, rfl, rfl, rfl, rfl, List.forall_mem_nil _⟩

theorem scalar_encodeInt {n : Int} (fits : FitsInt64 n) {s : Bytes} (closes : Closes s) :
    scalar (encodeInt n ++ s) = .ok (.number (.whole n), s) := by
  have range : n.natAbs ≤ int64Limit := by
    unfold FitsInt64 at fits
    unfold int64Limit
    omega
  have read := fun negative => readNumber_digits (n := n.natAbs)
    (Nat.lt_of_le_of_lt range (by decide)) negative closes
  unfold encodeInt
  by_cases sign : n < 0
  · rw [if_pos sign]
    change (readNumber true (ascii (Nat.toDigits 10 n.natAbs) ++ s)).map _ = _
    rw [read, finishNumber_negative (by omega) range closes, show -(n.natAbs : Int) = n by omega]
    rfl
  · rw [if_neg sign, List.nil_append]
    obtain ⟨b, ds, shape⟩ : ∃ b ds, ascii (Nat.toDigits 10 n.natAbs) = b :: ds :=
      List.exists_cons_of_ne_nil (mt List.map_eq_nil_iff.1 Nat.toDigits_ne_nil)
    have digits := allDigits_toDigits n.natAbs
    rw [shape] at digits
    obtain ⟨d, value⟩ := digits.head
    have number := read false
    rw [shape, List.cons_append] at number ⊢
    rw [scalar_digit _ b (mem_digitBytes value), number, finishNumber_positive _ closes,
      show (n.natAbs : Int) = n by omega]
    rfl

/-- An integer of 64 bits is read. -/
theorem Decoder.reads_int64 {depth : Nat} (n : Int64) : int64.Reads depth (.int n.toInt) n := by
  have fits : FitsInt64 n.toInt := ⟨n.le_toInt, Int.le_of_lt_add_one n.toInt_lt⟩
  have whole : (Decoder.whole "i64" (-9223372036854775808) 9223372036854775807).Reads depth
      (.int n.toInt) n.toInt := by
    intro s closes
    have space : skipSpace (encodeInt n.toInt ++ s) = encodeInt n.toInt ++ s := by
      obtain ⟨b, r, shape, starts⟩ := (numeral_encodeInt n.toInt).starts
      rw [shape, List.cons_append, skipSpace_cons starts.1]
    rw [Json.int, encode, encodeNumber, Decoder.whole, space, scalar_encodeInt fits closes]
    unfold FitsInt64 at fits
    simp only [bind, Except.bind, if_pos fits]
    rfl
  have reads := whole.map Int64.ofInt
  rwa [Int64.ofInt_toInt] at reads

/-! ### Members of objects -/

/-- The members of an object behind its brace, or behind members before them. -/
def encodeBody : (first : Bool) → List (String × Json) → Bytes
  | false, ms => encodeMembers ms
  | true, [] => [0x7d]
  | true, (k, x) :: ms => encodeString k ++ 0x3a :: encode x ++ encodeMembers ms

theorem encode_object (ms : List (String × Json)) :
    (object ms).encode = 0x7b :: encodeBody true ms := by
  cases ms <;> simp [encode, encodeBody]

theorem nextKey_nil (first : Bool) (s : Bytes) :
    nextKey first (encodeBody first [] ++ s) = .ok (.done s) := by
  cases first <;> rfl

/-- The next key of an object is found behind its opening quote. -/
theorem nextKey_cons (first : Bool) (k : String) (x : Json) (ms : List (String × Json))
    (s : Bytes) :
    nextKey first (encodeBody first ((k, x) :: ms) ++ s) =
      .ok (.more ((Bytes.ofText k).flatMap escapeByte ++
        0x22 :: 0x3a :: (x.encode ++ (encodeBody false ms ++ s)))) := by
  have comma := skipSpace_cons (by decide : isSpace 0x2c = false)
  have quote := skipSpace_cons (by decide : isSpace 0x22 = false)
  cases first
  · simp [encodeBody, encodeMembers, nextKey, encodeString, comma, quote]
  · simp [encodeBody, nextKey, encodeString, quote]

theorem closes_encodeBody (ms : List (String × Json)) (s : Bytes) :
    Closes (encodeBody false ms ++ s) :=
  closes_encodeMembers ms s

theorem colon_cons (s : Bytes) : colon (0x3a :: s) = .ok s :=
  rfl

theorem length_encodeBody (first : Bool) (ms : List (String × Json)) :
    ms.length < (encodeBody first ms).length := by
  have behind : ∀ ms : List (String × Json), ms.length < (encodeMembers ms).length := by
    intro ms
    induction ms with
    | nil => decide
    | cons m ms ih =>
      simp only [encodeMembers, List.length_append, List.length_cons]
      omega
  cases first with
  | false => exact behind ms
  | true =>
    cases ms with
    | nil => decide
    | cons m ms =>
      have := behind ms
      simp only [encodeBody, List.length_append, List.length_cons]
      omega

/-! ### Dictionaries -/

section

variable {α : Type} {depth : Nat} {d : Decoder α} {ms : List (String × Json)}
  {es : List (String × α)}

/-- The decoder reads the values of members as those of the entries `es`, under the same names. -/
def Decoder.ReadsMembers (d : Decoder α) (depth : Nat) (ms : List (String × Json))
    (es : List (String × α)) : Prop :=
  List.Forall₂ (fun m e => m.1 = e.1 ∧ d.Reads depth m.2 e.2) ms es

/-- The members of an object are read one after the other. -/
theorem membersLoop_encode (children : d.ReadsMembers depth ms es) {steps : Nat}
    (enough : ms.length < steps) (first : Bool) (acc : List (String × α)) (s : Bytes) :
    membersLoop (d depth) steps first acc (encodeBody first ms ++ s) =
      .ok (acc.reverse ++ es, s) := by
  induction children generalizing steps first acc with
  | nil =>
    obtain ⟨steps, rfl⟩ := Nat.exists_eq_add_one_of_ne_zero (Nat.ne_zero_of_lt enough)
    rw [membersLoop, nextKey_nil, List.append_nil]
  | @cons m e ms es child children ih =>
    obtain ⟨steps, rfl⟩ := Nat.exists_eq_add_one_of_ne_zero (Nat.ne_zero_of_lt enough)
    obtain ⟨name, reads⟩ := child
    have here := reads _ (closes_encodeBody ms s)
    have rest := ih (Nat.lt_of_succ_lt_succ enough) false (e :: acc)
    rw [membersLoop, nextKey_cons]
    simp only [readString_encode, colon_cons, bind, Except.bind, here, pure, Except.pure, name]
    rw [List.reverse_cons, List.append_assoc] at rest
    exact rest

/-- An object with a member that is refused is refused, if members before it are read or refused for
the same reason. -/
theorem membersLoop_refuses {f : Fault}
    (children : ∀ m ∈ ms, (∃ x, d.Reads depth m.2 x) ∨ d.Refuses depth m.2 f)
    (bad : ∃ m ∈ ms, d.Refuses depth m.2 f) {steps : Nat} (enough : ms.length < steps)
    (first : Bool) (acc : List (String × α)) (s : Bytes) :
    membersLoop (d depth) steps first acc (encodeBody first ms ++ s) = .error f := by
  induction ms generalizing steps first acc with
  | nil =>
    obtain ⟨m, mem, -⟩ := bad
    cases mem
  | cons m ms ih =>
    obtain ⟨steps, rfl⟩ := Nat.exists_eq_add_one_of_ne_zero (Nat.ne_zero_of_lt enough)
    have closes := closes_encodeBody ms s
    rw [membersLoop, nextKey_cons]
    by_cases refuses : d.Refuses depth m.2 f
    · simp only [readString_encode, colon_cons, bind, Except.bind, refuses _ closes]
    · obtain ⟨x, reads⟩ := (children m List.mem_cons_self).resolve_right refuses
      have later : ∃ m ∈ ms, d.Refuses depth m.2 f := by
        obtain ⟨m', mem, refuses'⟩ := bad
        rcases List.mem_cons.1 mem with rfl | mem
        · exact absurd refuses' refuses
        · exact ⟨m', mem, refuses'⟩
      have rest := ih (fun m' mem => children m' (List.mem_cons_of_mem m mem)) later
        (Nat.lt_of_succ_lt_succ enough) false ((m.1, x) :: acc)
      simp only [readString_encode, colon_cons, bind, Except.bind, reads _ closes, pure,
        Except.pure]
      exact rest

theorem enough_steps (ms : List (String × Json)) (s : Bytes) :
    ms.length < (encodeBody true ms ++ s).length + 1 := by
  have := length_encodeBody true ms
  rw [List.length_append]
  omega

/-- An object is read as the dictionary of what its members are read as. -/
theorem Decoder.dictionary_object (children : d.ReadsMembers depth ms es) (s : Bytes) :
    dictionary d (depth + 1) ((object ms).encode ++ s) = .ok (Dictionary.ofList es, s) := by
  rw [encode_object, List.cons_append]
  unfold dictionary
  rw [skipSpace_cons (by decide)]
  simp only [members, membersLoop_encode children (enough_steps ms s)]
  rfl

/-- An object with a member that is refused is no dictionary. -/
theorem Decoder.dictionary_refuses {f : Fault}
    (children : ∀ m ∈ ms, (∃ x, d.Reads depth m.2 x) ∨ d.Refuses depth m.2 f)
    (bad : ∃ m ∈ ms, d.Refuses depth m.2 f) (s : Bytes) :
    dictionary d (depth + 1) ((object ms).encode ++ s) = .error f := by
  rw [encode_object, List.cons_append]
  unfold dictionary
  rw [skipSpace_cons (by decide)]
  simp only [members, membersLoop_refuses children bad (enough_steps ms s)]
  rfl

end

/-! ### Records -/

namespace Record

variable {ρ : Type} {r : Record ρ} {depth : Nat} {s : Bytes}

/-- The members `ms`, behind which `s` follows, bring the given fields and the value of a record
forward. Each is the member of a field that has not been given, or of no field. -/
inductive Takes (r : Record ρ) (depth : Nat) (s : Bytes) :
    List String → ρ → List (String × Json) → List String → ρ → Prop where
  | done (given : List String) (x : ρ) : Takes r depth s given x [] given x
  | field {given after : List String} {x y : ρ} {k : String} {v : Json}
      {ms : List (String × Json)} {f : Field ρ} {change : ρ → ρ}
      (found : r.fields.find? (fun f => f.name == k) = some f) (fresh : given.contains k = false)
      (read : f.read depth (v.encode ++ (encodeBody false ms ++ s)) =
        .ok (change, encodeBody false ms ++ s))
      (rest : Takes r depth s (k :: given) (change x) ms after y) :
      Takes r depth s given x ((k, v) :: ms) after y
  | other {given after : List String} {x y : ρ} {k : String} {v : Json}
      {ms : List (String × Json)} (none : r.fields.find? (fun f => f.name == k) = none)
      (rest : Takes r depth s given x ms after y) :
      Takes r depth s given x ((k, v) :: ms) after y

/-- The member of a required field, of which the decoder reads the value. -/
theorem Takes.required {α : Type} {given after : List String} {x y : ρ} {k : String} {v : Json}
    {ms : List (String × Json)} {d : Decoder α} {set : α → ρ → ρ} {a : α}
    (found : r.fields.find? (fun f => f.name == k) = some (.required k d set))
    (fresh : given.contains k = false) (reads : d.Reads depth v a)
    (rest : Takes r depth s (k :: given) (set a x) ms after y) :
    Takes r depth s given x ((k, v) :: ms) after y :=
  .field found fresh (reads.map set _ (closes_encodeBody ms s)) rest

/-- The members of an object are taken one after the other. -/
theorem Takes.membersFrom {given after : List String} {x y : ρ} {ms : List (String × Json)}
    (takes : r.Takes depth s given x ms after y) (complete : missing? r.fields after = none)
    {steps : Nat} (enough : ms.length < steps) (first : Bool) :
    r.membersFrom depth steps first given x (encodeBody first ms ++ s) = .ok (y, s) := by
  induction takes generalizing steps first with
  | done given x =>
    obtain ⟨steps, rfl⟩ := Nat.exists_eq_add_one_of_ne_zero (Nat.ne_zero_of_lt enough)
    simp only [Record.membersFrom, nextKey_nil, complete]
  | field found fresh read rest ih =>
    obtain ⟨steps, rfl⟩ := Nat.exists_eq_add_one_of_ne_zero (Nat.ne_zero_of_lt enough)
    have behind := ih complete (Nat.lt_of_succ_lt_succ enough) false
    simp only [Record.membersFrom, nextKey_cons, readString_encode, readMember, found, fresh,
      colon_cons, bind, Except.bind, read]
    exact behind
  | other none rest ih =>
    rename_i ms
    obtain ⟨steps, rfl⟩ := Nat.exists_eq_add_one_of_ne_zero (Nat.ne_zero_of_lt enough)
    have behind := ih complete (Nat.lt_of_succ_lt_succ enough) false
    simp only [Record.membersFrom, nextKey_cons, readString_encode, readMember, none,
      colon_cons, bind, Except.bind, skipValue_encode _ (closes_encodeBody ms s)]
    exact behind

/-- An object is read as a record when its members give every field that has to be given. -/
theorem decoder_object {given : List String} {x : ρ} {ms : List (String × Json)}
    (takes : r.Takes depth s [] r.initial ms given x) (complete : missing? r.fields given = none) :
    r.decoder (depth + 1) ((object ms).encode ++ s) = .ok (x, s) := by
  rw [encode_object, List.cons_append]
  unfold decoder
  rw [skipSpace_cons (by decide)]
  exact takes.membersFrom complete (enough_steps ms s) true

end Record

theorem Decoder.run_encode {α : Type} {d : Decoder α} {t : Bytes} {x : α}
    (reads : d depthLimit t = .ok (x, [])) : d.run t = .ok x := by
  rw [run, reads]
  rfl

theorem Decoder.run_refused {α : Type} {d : Decoder α} {t : Bytes} {f : Fault}
    (refused : d depthLimit t = .error f) : d.run t = .error f := by
  rw [run, refused]
  rfl

end Courier.Json
