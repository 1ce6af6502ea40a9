import Courier.Proofs.Header

/-!
# Doubles in headers

Finite headers come back from their attribute, all but the doubles as their texts have them. A
double is written with the shortest digits that belong to it alone, but it is read with three
roundings at least: of the digits, of the power of ten, and of their product or quotient. So it
comes back as a double that is at most three units in the last place away, with the same sign. It
comes back itself when the first two roundings change nothing. Others do not always come back.

## Main definitions

* `Headers.Returns`: headers are the same but for the last places of doubles.

## Main results

* `Headers.ofAttribute_returns`: finite headers come back but for the last places of doubles.
* `Headers.ofAttribute_of_short`: headers with short doubles come back.
* `Headers.double_changed`: a double that does not come back.
-/

namespace Courier

/-- A double comes back as one that is close to it, and every other value as its text has it. -/
inductive Header.Returns : Header → Header → Prop where
  | other {v : Header} (kind : v.kind ≠ .float) : Returns v v.asRead
  | float {x y : Float} (back : Json.Returns x y) : Returns (.float x) (.float y)

/-- Headers have the same names in both dictionaries, and the values come back. -/
def Headers.Returns (h h' : Headers) : Prop :=
  List.Forall₂ (fun e e' => e.1 = e'.1 ∧ e.2.Returns e'.2) h.entries h'.entries

/-- The digits of the value and their power of ten are doubles, if the value is a double. -/
def Header.isShort : Header → Bool
  | .float x => (Json.reading x).digits ≤ 2 ^ 53 && (Json.reading x).exponent.natAbs ≤ 22
  | _ => true

theorem Header.Returns.eq_of_isShort {v w : Header} (back : v.Returns w)
    (short : v.isShort = true) : v.asRead = w := by
  cases back with
  | other => rfl
  | float back =>
    obtain ⟨few, power⟩ := Bool.and_eq_true_iff.1 short
    rw [back.exact (of_decide_eq_true few) (of_decide_eq_true power)]
    rfl

theorem Header.reads_content_returns {v : Header} (finite : v.isFinite = true) :
    ∃ w, v.Returns w ∧ ∀ depth, v.kind.decoder.Reads depth v.content w := by
  by_cases double : v.kind = .float
  · cases v with
    | float x =>
      obtain ⟨y, back, reads⟩ := Json.Decoder.reads_float finite
      exact ⟨.float y, .float back, fun depth => (reads depth).map Header.float⟩
    | string | int | bool | bytes | timestamp => cases double
  · exact ⟨v.asRead, .other double, reads_content double⟩

namespace Headers

/-- Finite headers come back from the attribute that carries them: texts, integers, truth values and
byte strings as they were, timestamps as their texts have them, and doubles with the same sign and
at most three units in the last place away. -/
theorem ofAttribute_returns {h : Headers} (finite : h.Finite) :
    ∃ h', ofAttribute (some h.toAttribute) = .ok h' ∧ h.Returns h' :=
  ofAttribute_of_reads fun e here => Header.reads_content_returns (finite e here)

/-- Headers whose doubles are all short come back as their texts have them. -/
theorem ofAttribute_of_short {h : Headers} (finite : h.Finite)
    (short : ∀ e ∈ h.entries, e.2.isShort = true) :
    ofAttribute (some h.toAttribute) = .ok h.asRead := by
  obtain ⟨h', read, back⟩ := ofAttribute_of_reads
    fun e here => Header.reads_content_returns (finite e here)
  have both := (List.forall₂_and_left _ _).2 ⟨short, back⟩
  have same : List.Forall₂ Eq (h.entries.map fun e => (e.1, e.2.asRead)) h'.entries :=
    List.forall₂_map_left_iff.2 <|
      both.imp fun e e' ⟨short, name, value⟩ => Prod.ext name (value.eq_of_isShort short)
  rw [List.forall₂_eq_eq_eq] at same
  rw [read]
  cases h
  cases h'
  cases same
  rfl

end Headers

/-- Headers with doubles at the limits of their range, and one that does not come back. -/
def Sample.measures : Headers := .ofList
  [("half", .float 0.5), ("least", .float 5e-324), ("most", .float (-1.7976931348623157e308)),
    ("nothing", .float (-0.0)), ("other", .float 0.9790542617217443), ("unit", .string "m")]

/-- Headers with doubles come back but for their last places. -/
theorem Headers.ofAttribute_returns_of_measures : Sample.measures.Finite ∧
    ∃ h', ofAttribute (some Sample.measures.toAttribute) = .ok h' ∧
      Sample.measures.Returns h' := by
  have finite : Sample.measures.Finite := by decide +kernel
  exact ⟨finite, ofAttribute_returns finite⟩

/-- A header with a double. -/
def Sample.ratio (x : Float) : Headers :=
  .ofList [("ratio", .float x)]

/-- A double comes back as the next one. -/
theorem Headers.double_changed : (0.9790542617217443 : Float).isFinite = true ∧
    (0.9790542617217443 : Float) ≠ 0.9790542617217444 ∧
    Headers.ofAttribute (some (Sample.ratio 0.9790542617217443).toAttribute) =
      .ok (Sample.ratio 0.9790542617217444) := by
  decide +kernel

end Courier
