import Courier.Proofs.Json.Numerals
import Courier.Proofs.Json.Strings

/-!
# Written values are passed over

A value that nobody asks for is passed over without a look at what it is, whatever it holds and
however deep it nests. The scanner keeps a stack of the open arrays and objects. Behind the
written form of a value it has the stack that it began with, after at most as many steps as the
value has bytes.

## Main definitions

* `Json.Passes`: the scanner gets behind a text and has another stack there.

## Main results

* `Json.passes_encode`: the scanner gets behind the written form of a value.
* `Json.skipValue_encode`: a written value is passed over.
-/

namespace Courier.Json

/-- Behind `t` the scanner expects what follows a value, and its stack has become `after`. It
takes no more steps than `t` has bytes. -/
def Passes (t : Bytes) (expected : Expected) (stack after : List Open) : Prop :=
  ∃ k ≤ t.length, ∀ steps s, Closes s →
    skipLoop (steps + k) expected stack (t ++ s) = skipLoop steps .next after s

/-- A value is expected, perhaps as the first item of an array. -/
inductive Expected.Value : Expected → Prop where
  | value : Expected.value.Value
  | firstItem : Expected.firstItem.Value

/-- The first byte of a scalar value. -/
def Starts (b : UInt8) : Prop :=
  isSpace b = false ∧ b ≠ 0x5b ∧ b ≠ 0x5d ∧ b ≠ 0x7b

instance : DecidablePred Starts := fun b =>
  inferInstanceAs (Decidable (isSpace b = false ∧ b ≠ 0x5b ∧ b ≠ 0x5d ∧ b ≠ 0x7b))

theorem skipSpace_cons {b : UInt8} (visible : isSpace b = false) (s : Bytes) :
    skipSpace (b :: s) = b :: s := by
  rw [skipSpace, List.dropWhile_cons_of_neg (by rw [visible]; decide)]

theorem Closes.skipSpace {s : Bytes} (closes : Closes s) : skipSpace s = s := by
  cases closes <;> exact skipSpace_cons (by decide) _

/-- Scalar values are passed over in one step. -/
theorem passes_scalar {b : UInt8} {t : Bytes} (starts : Starts b) {expected : Expected}
    (any : expected.Value) (stack : List Open)
    (scalar : ∀ s, Closes s → skipScalar (b :: t ++ s) = .ok s) :
    Passes (b :: t) expected stack stack := by
  obtain ⟨visible, bracket, closed, brace⟩ := starts
  refine ⟨1, by simp, fun steps s closes => ?_⟩
  have here := scalar s closes
  rw [List.cons_append] at here ⊢
  cases any <;> simp [skipLoop, skipSpace_cons visible, bracket, closed, brace, here]

/-! ### Composite texts -/

section

variable {t u : Bytes} {expected other : Expected} {stack middle after : List Open}

/-- One step over a byte of punctuation. -/
theorem Passes.step {b : UInt8} (rest : Passes t other middle after)
    (first : ∀ steps s,
      skipLoop (steps + 1) expected stack (b :: s) = skipLoop steps other middle s) :
    Passes (b :: t) expected stack after := by
  obtain ⟨k, short, passes⟩ := rest
  refine ⟨k + 1, Nat.succ_le_succ short, fun steps s closes => ?_⟩
  rw [List.cons_append, ← Nat.add_assoc, first, passes steps s closes]

theorem Passes.trans (first : Passes t expected stack middle) (rest : Passes u .next middle after)
    (closes : ∀ s, Closes (u ++ s)) : Passes (t ++ u) expected stack after := by
  obtain ⟨j, short, passes⟩ := first
  obtain ⟨k, little, goes⟩ := rest
  refine ⟨k + j, by rw [List.length_append]; omega, fun steps s closed => ?_⟩
  rw [List.append_assoc, ← Nat.add_assoc, passes _ _ (closes s), goes steps s closed]

theorem Passes.key (k : String) (orEnd : Bool) (value : Passes t .value stack after) :
    Passes (encodeString k ++ 0x3a :: t) (.key orEnd) stack after := by
  obtain ⟨n, short, passes⟩ := value
  refine ⟨n + 1, ?_, fun steps s closes => ?_⟩
  · rw [List.length_append, List.length_cons]
    omega
  · have key : skipKey ((Bytes.ofText k).flatMap escapeByte ++ 0x22 :: 0x3a :: (t ++ s)) =
        .ok (t ++ s) := by
      rw [skipKey, skipString_encode]
      rfl
    rw [List.append_assoc, encodeString_append, ← Nat.add_assoc, ← passes steps s closes]
    simp [skipLoop, skipSpace_cons (by decide : isSpace 0x22 = false), key]

end

theorem closes_encodeItems (xs : List Json) (s : Bytes) : Closes (encodeItems xs ++ s) := by
  cases xs with
  | nil => exact .bracket s
  | cons x xs => rw [encodeItems]; exact .comma _

theorem closes_encodeMembers (ms : List (String × Json)) (s : Bytes) :
    Closes (encodeMembers ms ++ s) := by
  cases ms with
  | nil => exact .brace s
  | cons m ms => rw [encodeMembers]; exact .comma _

/-! ### Values -/

theorem passes_word {cs : List Char} (word : cs ∈ [['n', 'u', 'l', 'l'], ['t', 'r', 'u', 'e'],
      ['f', 'a', 'l', 's', 'e']]) {expected : Expected} (any : expected.Value)
    (stack : List Open) : Passes (ascii cs) expected stack stack := by
  simp only [List.mem_cons, List.not_mem_nil, or_false] at word
  rcases word with rfl | rfl | rfl <;>
    exact passes_scalar (by decide) any stack fun s _ => rfl

theorem starts_digit : ∀ b ∈ digitBytes, Starts b := by
  simp only [digitBytes, List.forall_mem_cons]
  refine ⟨?_, ?_, ?_, ?_, ?_, ?_, ?_, ?_, ?_, ?_, List.forall_mem_nil _⟩ <;> decide

theorem Numeral.starts {t : Bytes} (numeral : Numeral t) : ∃ b r, t = b :: r ∧ Starts b := by
  cases numeral with
  | plain unsigned =>
    obtain ⟨b, r, rfl, digit⟩ := unsigned.head
    exact ⟨b, r, rfl, starts_digit b digit⟩
  | minus unsigned => exact ⟨_, _, rfl, by decide⟩

theorem passes_numeral {t : Bytes} (numeral : Numeral t) {expected : Expected}
    (any : expected.Value) (stack : List Open) : Passes t expected stack stack := by
  have scalar := fun s (closes : Closes s) => skipScalar_numeral numeral closes
  obtain ⟨b, r, rfl, starts⟩ := numeral.starts
  exact passes_scalar starts any stack scalar

/-- Numbers are passed over, and so are the words in place of doubles that are not finite. -/
theorem passes_encodeNumber (n : Number) {expected : Expected} (any : expected.Value)
    (stack : List Open) : Passes (encodeNumber n) expected stack stack := by
  cases n with
  | whole n => exact passes_numeral (numeral_encodeInt n) any stack
  | float x =>
    by_cases finite : x.isFinite
    · rw [encodeNumber, if_pos finite]
      exact passes_numeral (numeral_write x) any stack
    · rw [encodeNumber, if_neg finite]
      exact passes_word (by decide) any stack

theorem passes_encodeString (t : String) {expected : Expected} (any : expected.Value)
    (stack : List Open) : Passes (encodeString t) expected stack stack := by
  refine passes_scalar (by decide) any stack fun s _ => ?_
  change skipScalar (encodeString t ++ s) = .ok s
  rw [encodeString_append]
  exact skipString_encode t s

theorem skipLoop_array {expected : Expected} (any : expected.Value) (steps : Nat)
    (stack : List Open) (s : Bytes) :
    skipLoop (steps + 1) expected stack (0x5b :: s) =
      skipLoop steps .firstItem (.array :: stack) s := by
  cases any <;> rfl

theorem skipLoop_object {expected : Expected} (any : expected.Value) (steps : Nat)
    (stack : List Open) (s : Bytes) :
    skipLoop (steps + 1) expected stack (0x7b :: s) =
      skipLoop steps (.key true) (.object :: stack) s := by
  cases any <;> rfl

/-- A step that ends an array or an object. -/
theorem Passes.last {b : UInt8} {expected : Expected} {stack after : List Open}
    (only : ∀ steps s,
      skipLoop (steps + 1) expected stack (b :: s) = skipLoop steps .next after s) :
    Passes [b] expected stack after :=
  ⟨1, Nat.le_refl 1, fun steps s _ => only steps s⟩

mutual

-- The induction is on the value. Items and members have statements of their own, because the
-- scanner leaves their array or object together with the last of them.

/-- The scanner gets behind the written form of a value, whatever the value. -/
theorem passes_encode (v : Json) {expected : Expected} (any : expected.Value)
    (stack : List Open) : Passes v.encode expected stack stack := by
  match v with
  | .null => exact passes_word (by decide) any stack
  | .bool true => exact passes_word (by decide) any stack
  | .bool false => exact passes_word (by decide) any stack
  | .number n => rw [encode]; exact passes_encodeNumber n any stack
  | .string t => rw [encode]; exact passes_encodeString t any stack
  | .array [] =>
    exact (Passes.last fun _ _ => rfl).step fun steps s => skipLoop_array any steps stack s
  | .array (x :: xs) =>
    rw [encode]
    refine Passes.step ?_ fun steps s => skipLoop_array any steps stack s
    exact (passes_encode x .firstItem _).trans (passes_encodeItems xs stack) (closes_encodeItems xs)
  | .object [] =>
    exact (Passes.last fun _ _ => rfl).step fun steps s => skipLoop_object any steps stack s
  | .object ((k, x) :: ms) =>
    rw [encode, List.cons_append, List.cons_append, List.append_assoc, List.cons_append]
    refine Passes.step ?_ fun steps s => skipLoop_object any steps stack s
    exact (Passes.trans (passes_encode x .value _) (passes_encodeMembers ms stack)
      (closes_encodeMembers ms)).key k true

theorem passes_encodeItems (xs : List Json) (outer : List Open) :
    Passes (encodeItems xs) .next (.array :: outer) outer := by
  match xs with
  | [] => exact Passes.last fun _ _ => rfl
  | x :: xs =>
    rw [encodeItems]
    refine Passes.step ?_ fun _ _ => rfl
    exact (passes_encode x .value _).trans (passes_encodeItems xs outer) (closes_encodeItems xs)

theorem passes_encodeMembers (ms : List (String × Json)) (outer : List Open) :
    Passes (encodeMembers ms) .next (.object :: outer) outer := by
  match ms with
  | [] => exact Passes.last fun _ _ => rfl
  | (k, x) :: ms =>
    rw [encodeMembers, List.cons_append, List.cons_append, List.append_assoc, List.cons_append]
    refine Passes.step ?_ fun _ _ => rfl
    exact (Passes.trans (passes_encode x .value _) (passes_encodeMembers ms outer)
      (closes_encodeMembers ms)).key k false

end

/-- A written value is passed over, whatever the value. -/
theorem skipValue_encode (v : Json) {s : Bytes} (closes : Closes s) :
    skipValue (v.encode ++ s) = .ok s := by
  obtain ⟨k, short, passes⟩ := passes_encode v .value []
  -- There is a step for each byte, and one more for the end.
  have enough : (v.encode ++ s).length + 1 = (v.encode ++ s).length - k + 1 + k := by
    rw [List.length_append]
    omega
  rw [skipValue, enough, passes _ s closes]
  simp [skipLoop, closes.skipSpace]

end Courier.Json
