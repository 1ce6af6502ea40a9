import Courier.Message.QueueName
import Courier.Proofs.Json.Records

/-!
# The grammar of queue names

A queue name is a word over the ASCII letters and digits, the hyphen and the underscore, or such a
word with the ending `.fifo`, and its text has 1 to 80 bytes. The dot is no character of words, so a
name has one of the two forms, and the ending tells which.

A text may come in as it stands or in a JSON text; either way the same texts are names, and a name
goes out as the text that it was. Nothing in a name has to be escaped.

## Main definitions

* `QueueName.IsWord`: the words that names are made of.
* `QueueName.Form`: the texts of names of queues of either kind, whatever their length.

## Main results

* `QueueName.ofText_isOk_iff`: the texts that are names.
* `QueueName.form_iff`: the form of a name is told by its ending.
* `QueueName.accepts_grammar`: which texts are names, which queues they name, how other texts are
  refused, and how names come in and go out.
-/

namespace Courier

namespace QueueName

/-! ### The two forms -/

/-- The characters of words. -/
def IsWordChar (c : Char) : Prop :=
  'a' ≤ c ∧ c ≤ 'z' ∨ 'A' ≤ c ∧ c ≤ 'Z' ∨ '0' ≤ c ∧ c ≤ '9' ∨ c = '-' ∨ c = '_'

instance : DecidablePred IsWordChar := fun c =>
  inferInstanceAs (Decidable ('a' ≤ c ∧ c ≤ 'z' ∨ 'A' ≤ c ∧ c ≤ 'Z' ∨ '0' ≤ c ∧ c ≤ '9' ∨
    c = '-' ∨ c = '_'))

/-- The words that names are made of. -/
def IsWord (w : String) : Prop :=
  w ≠ "" ∧ ∀ c ∈ w.toList, IsWordChar c

/-- The texts of names of queues that keep their messages in order, and of other queues. -/
inductive Form : String → (fifo : Bool) → Prop
  | plain {w : String} (word : IsWord w) : Form w false
  | fifo {w : String} (word : IsWord w) : Form (w ++ ".fifo") true

variable {c : Char} {s w : String}

theorem isUpper_iff : c.isUpper = true ↔ 'A' ≤ c ∧ c ≤ 'Z' :=
  decide_eq_true_iff

theorem isLower_iff : c.isLower = true ↔ 'a' ≤ c ∧ c ≤ 'z' :=
  Bool.and_eq_true_iff.trans (and_congr decide_eq_true_iff decide_eq_true_iff)

theorem isDigit_iff : c.isDigit = true ↔ '0' ≤ c ∧ c ≤ '9' :=
  Bool.and_eq_true_iff.trans (and_congr decide_eq_true_iff decide_eq_true_iff)

theorem isNameChar_iff : isNameChar c = true ↔ IsWordChar c := by
  have kinds : isNameChar c =
      ((c.isUpper || c.isLower || c.isDigit) || decide (c = '-') || decide (c = '_')) := rfl
  rw [kinds, IsWordChar]
  simp only [Bool.or_eq_true, isUpper_iff, isLower_iff, isDigit_iff, decide_eq_true_eq]
  tauto

theorem nameWord_append (cs : List Char) : nameWord (cs ++ fifoEnding) = cs := by
  have ending : fifoEnding.isSuffixOf (cs ++ fifoEnding) = true :=
    List.isSuffixOf_iff_suffix.2 (List.suffix_append ..)
  rw [nameWord, if_pos ending, List.length_append, Nat.add_sub_cancel, List.take_left]

/-- A word has no ending, since the dot is no character of words. -/
theorem IsWord.not_suffix (word : IsWord w) : fifoEnding.isSuffixOf w.toList = false := by
  rw [Bool.eq_false_iff, Ne, List.isSuffixOf_iff_suffix]
  intro ending
  have dot : '.' ∈ w.toList := ending.subset List.mem_cons_self
  exact absurd (word.2 '.' dot) (by unfold IsWordChar; decide)

theorem toList_ending : (".fifo" : String).toList = fifoEnding := rfl

theorem Form.isSuffixOf {fifo : Bool} (form : Form s fifo) :
    fifoEnding.isSuffixOf s.toList = fifo := by
  cases form with
  | plain word => exact word.not_suffix
  | fifo word =>
    rw [String.toList_append, toList_ending]
    exact List.isSuffixOf_iff_suffix.2 (List.suffix_append ..)

theorem isWord_iff {cs : List Char} :
    IsWord (String.ofList cs) ↔ (!cs.isEmpty && cs.all isNameChar) = true := by
  simp [IsWord, isNameChar_iff]

theorem isNameForm_iff : isNameForm s.toList = true ↔ ∃ fifo, Form s fifo := by
  rw [isNameForm, ← isWord_iff]
  constructor
  · intro word
    by_cases ending : fifoEnding.isSuffixOf s.toList = true
    · obtain ⟨cs, split⟩ := List.isSuffixOf_iff_suffix.1 ending
      rw [← split, nameWord_append] at word
      have whole : s = String.ofList cs ++ ".fifo" := by
        rw [← String.toList_inj, String.toList_append, String.toList_ofList, toList_ending, split]
      exact ⟨true, whole ▸ .fifo word⟩
    · rw [nameWord, if_neg ending, String.ofList_toList] at word
      exact ⟨false, .plain word⟩
  · rintro ⟨fifo, form⟩
    cases form with
    | plain word =>
      rw [nameWord, word.not_suffix, if_neg Bool.false_ne_true, String.ofList_toList]
      exact word
    | fifo word =>
      rwa [String.toList_append, toList_ending, nameWord_append, String.ofList_toList]

theorem isNameLength_iff : isNameLength s = true ↔ 1 ≤ s.utf8ByteSize ∧ s.utf8ByteSize ≤ 80 := by
  simp [isNameLength]

/-! ### Texts that are names, and others -/

theorem ofText_eq_ok {n : QueueName} : ofText s = .ok n ↔ n.text = s := by
  constructor
  · intro read
    unfold ofText at read
    split at read
    · split at read <;> cases read
      rfl
    · cases read
  · rintro rfl
    have valid := n.valid
    rw [Bool.and_eq_true] at valid
    rw [ofText, dif_pos valid.1, dif_pos valid.2]

/-- A text is a name if it has a permitted length and one of the two forms. -/
theorem ofText_isOk_iff : (∃ n, ofText s = .ok n) ↔
    (1 ≤ s.utf8ByteSize ∧ s.utf8ByteSize ≤ 80) ∧ ∃ fifo, Form s fifo := by
  rw [← isNameLength_iff, ← isNameForm_iff]
  constructor
  · rintro ⟨n, read⟩
    obtain rfl := ofText_eq_ok.1 read
    simpa using n.valid
  · rintro ⟨length, form⟩
    exact ⟨⟨s, by simp [length, form]⟩, ofText_eq_ok.2 rfl⟩

/-- A text of another length is refused as such, and only otherwise its form is looked at. -/
theorem ofText_eq_error {e : FieldError} (refused : ofText s = .error e) :
    e = if 1 ≤ s.utf8ByteSize ∧ s.utf8ByteSize ≤ 80 then
        .invalidFormat "queue_name"
          "only ASCII alphanumeric, hyphens, underscores and a '.fifo' suffix allowed"
      else .outOfRange "queue_name" "must be 1-80 characters" := by
  unfold ofText at refused
  split at refused
  · next length =>
    rw [if_pos (isNameLength_iff.1 length)]
    split at refused <;> cases refused
    rfl
  · next length =>
    rw [if_neg (mt isNameLength_iff.2 length)]
    cases refused
    rfl

/-- The ending of a name tells which of the two forms it has. -/
theorem form_iff (n : QueueName) (fifo : Bool) : Form n.text fifo ↔ n.isFifo = fifo := by
  obtain ⟨-, kind, form⟩ := ofText_isOk_iff.1 ⟨n, ofText_eq_ok.2 rfl⟩
  constructor
  · exact Form.isSuffixOf
  · rintro rfl
    rwa [isFifo, form.isSuffixOf]

/-! ### Names in JSON texts -/

theorem Form.mem {fifo : Bool} (form : Form s fifo) :
    ∀ c ∈ s.toList, IsWordChar c ∨ c ∈ fifoEnding := by
  cases form with
  | plain word => exact fun c mem => .inl (word.2 c mem)
  | fifo word =>
    intro c mem
    rw [String.toList_append, List.mem_append] at mem
    exact mem.imp (word.2 c) id

theorem escape_char (own : IsWordChar c ∨ c ∈ fifoEnding) :
    (String.utf8EncodeChar c).flatMap Json.escapeByte = String.utf8EncodeChar c := by
  have small : c.toNat < 128 := by
    rcases own with own | own
    · simp only [IsWordChar, Char.le_def, UInt32.le_iff_toNat_le] at own
      have code : c.val.toNat = c.toNat := rfl
      rcases own with ⟨-, most⟩ | ⟨-, most⟩ | ⟨-, most⟩ | rfl | rfl
      · exact Nat.lt_of_le_of_lt most (by decide)
      · exact Nat.lt_of_le_of_lt most (by decide)
      · exact Nat.lt_of_le_of_lt most (by decide)
      · decide
      · decide
    · have ending : fifoEnding.all (·.toNat < 128) = true := by decide
      exact of_decide_eq_true (List.all_eq_true.1 ending c own)
  have each : ∀ n < 128, IsWordChar (Char.ofNat n) ∨ Char.ofNat n ∈ fifoEnding →
      (String.utf8EncodeChar (Char.ofNat n)).flatMap Json.escapeByte =
        String.utf8EncodeChar (Char.ofNat n) := by
    decide +kernel
  have here := each c.toNat small
  rw [Char.ofNat_toNat] at here
  exact here own

theorem encode_toJson (n : QueueName) :
    n.toJson.encode = 0x22 :: Bytes.ofText n.text ++ [0x22] := by
  obtain ⟨-, fifo, form⟩ := ofText_isOk_iff.1 ⟨n, ofText_eq_ok.2 rfl⟩
  have plain : (Bytes.ofText n.text).flatMap Json.escapeByte = Bytes.ofText n.text := by
    have bytes := Bytes.ofText_ofList n.text.toList
    rw [String.ofList_toList] at bytes
    rw [bytes, List.flatMap_assoc]
    exact List.flatMap_congr fun c mem => escape_char (form.mem c mem)
  rw [toJson, Json.encode, Json.encodeString, plain]

end QueueName

theorem Json.Decoder.run_check {α β : Type} {d : Json.Decoder α} {t : Bytes} {x : α}
    (read : d.run t = .ok x) (f : α → Except String β) :
    (d.check f).run t = (f x).mapError .refused := by
  cases whole : d depthLimit t with
  | error e =>
    rw [run, whole] at read
    cases read
  | ok found =>
    obtain ⟨y, rest⟩ := found
    simp only [run, whole, bind, Except.bind] at read
    split at read
    · next last =>
      cases read
      simp only [run, check, whole, bind, Except.bind]
      cases rule : f x with
      | error reason => rfl
      | ok z => exact if_pos last
    · cases read

namespace QueueName

variable {s : String}

theorem run_decoder {t : Bytes} (read : Json.Decoder.string.run t = .ok s) :
    decoder.run t = (ofText s).mapError (.refused ·.message) := by
  rw [decoder, Json.Decoder.run_check read]
  cases ofText s <;> rfl

theorem run_string (s : String) : Json.Decoder.string.run (Json.string s).encode = .ok s := by
  have text := Json.encodeString_append s []
  rw [List.append_nil] at text
  refine Json.Decoder.run_encode ?_
  rw [Json.encode, text, Json.Decoder.string, Json.Decoder.stringAs,
    Json.skipSpace_cons (by decide)]
  exact Json.readString_encode s []

/-- **Names are what the grammar says.** A text is a name if it has 1 to 80 bytes and is a word, or
a word with the ending `.fifo`; the second form is that of the queues that keep their messages in
order. Another text is refused, for its length if that is wrong and otherwise for its form.

It does not matter whether the text is parsed, converted or read from a JSON text, and however that
spells it. A name is shown as the text that it was, and written between quotes without a change. -/
theorem accepts_grammar (s : String) :
    ((∃ n, ofText s = .ok n) ↔
      (1 ≤ s.utf8ByteSize ∧ s.utf8ByteSize ≤ 80) ∧ ∃ fifo, Form s fifo) ∧
    (∀ n, ofText s = .ok n → n.text = s ∧ toString n = s ∧
      (∀ fifo, Form s fifo ↔ n.isFifo = fifo) ∧
      n.toJson.encode = 0x22 :: Bytes.ofText s ++ [0x22] ∧ decoder.run n.toJson.encode = .ok n) ∧
    (∀ e, ofText s = .error e →
      e = if s.utf8ByteSize = 0 ∨ 80 < s.utf8ByteSize then
          .outOfRange "queue_name" "must be 1-80 characters"
        else .invalidFormat "queue_name"
          "only ASCII alphanumeric, hyphens, underscores and a '.fifo' suffix allowed") ∧
    parse s = ofText s ∧ convert s = ofText s ∧
    Json.Decoder.string.run (Json.string s).encode = .ok s ∧
    ∀ t, Json.Decoder.string.run t = .ok s →
      decoder.run t = (ofText s).mapError (.refused ·.message) := by
  refine ⟨ofText_isOk_iff, fun n read => ?_, fun e refused => ?_, rfl, rfl, run_string s,
    fun t => run_decoder⟩
  · obtain rfl := ofText_eq_ok.1 read
    have back : decoder.run n.toJson.encode = .ok n := by
      rw [toJson, run_decoder (run_string n.text), read]
      rfl
    exact ⟨rfl, rfl, form_iff n, encode_toJson n, back⟩
  · rw [ofText_eq_error refused]
    split <;> split <;> first | rfl | omega

/-- The name of a queue that keeps its messages in order, in a JSON text that spells it with an
escape. -/
theorem accepts_grammar_of_orders :
    Json.Decoder.string.run (.ofText "\"\\u006frders.fifo\"") = .ok "orders.fifo" ∧
    ∃ n, ofText "orders.fifo" = .ok n ∧ n.isFifo = true ∧
      decoder.run (.ofText "\"\\u006frders.fifo\"") = .ok n := by
  have spelt : Json.Decoder.string.run (.ofText "\"\\u006frders.fifo\"") = .ok "orders.fifo" := by
    decide +kernel
  obtain ⟨names, told, -, -, -, -, spellings⟩ := accepts_grammar "orders.fifo"
  have plain : "orders".toList.all isNameChar = true := by decide
  have word : IsWord "orders" :=
    ⟨by decide, fun c mem => isNameChar_iff.1 (List.all_eq_true.1 plain c mem)⟩
  have form : Form "orders.fifo" true := .fifo word
  obtain ⟨n, read⟩ := names.2 ⟨by decide, true, form⟩
  obtain ⟨-, -, kind, -⟩ := told n read
  refine ⟨spelt, n, read, (kind true).1 form, ?_⟩
  rw [spellings _ spelt, read]
  rfl

end QueueName

end Courier
