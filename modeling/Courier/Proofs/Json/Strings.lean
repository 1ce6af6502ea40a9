import Courier.Json.Lexer

/-!
# Written strings are read back

Every byte of a text is written as itself or as an escape, and the scanner of strings takes each
escape back to the byte it stands for. So a written string reads as its text, whatever characters
the text has, and whatever follows the closing quote is left.

## Main results

* `Json.readString_encode`: a written string is read as its text.
* `Json.skipString_encode`: a written string that nobody asks for is passed over.
-/

namespace Courier.Json

theorem hexValue?_hexDigit : ∀ d < 16, hexValue? (hexDigit d) = some d := by
  decide

theorem hex4?_control {b : UInt8} (control : b < 0x20) :
    hex4? 0x30 0x30 (hexDigit (b.toNat / 16)) (hexDigit (b.toNat % 16)) = some b.toNat := by
  have small : b.toNat < 32 := control
  have zero : hexValue? 0x30 = some 0 := by decide
  have high := hexValue?_hexDigit (b.toNat / 16) (by omega)
  have low := hexValue?_hexDigit (b.toNat % 16) (by omega)
  simp only [hex4?, zero, high, low, Option.bind_eq_bind, Option.bind_some, Option.pure_def,
    Option.some.injEq]
  omega

theorem utf8Reversed_control {b : UInt8} (control : b < 0x20) : utf8Reversed b.toNat = [b] := by
  have small : b.toNat < 32 := control
  rw [utf8Reversed, if_pos (by omega), UInt8.ofNat_toNat]

/-- A byte is written as a letter behind a backslash, as the four digits of its code, or as
itself. -/
theorem escapeByte_cases (b : UInt8) :
    (∃ letter, escapeByte b = [0x5c, letter] ∧ letter ≠ 0x75 ∧ escaped? letter = some b) ∨
    (b < 0x20 ∧ escapeByte b =
      [0x5c, 0x75, 0x30, 0x30, hexDigit (b.toNat / 16), hexDigit (b.toNat % 16)]) ∨
    (escapeByte b = [b] ∧ b ≠ 0x22 ∧ b ≠ 0x5c ∧ ¬ b < 0x20) := by
  by_cases short : b ∈ [0x22, 0x5c, 0x08, 0x0c, 0x0a, 0x0d, 0x09]
  · simp only [List.mem_cons, List.not_mem_nil, or_false] at short
    rcases short with rfl | rfl | rfl | rfl | rfl | rfl | rfl <;>
      exact .inl ⟨_, rfl, by decide, by decide⟩
  · simp only [List.mem_cons, List.not_mem_nil, or_false, not_or] at short
    obtain ⟨quote, backslash, backspace, feed, line, carriage, tab⟩ := short
    right
    simp only [escapeByte, quote, backslash, backspace, feed, line, carriage, tab, if_false]
    by_cases control : b < 0x20
    · exact .inl ⟨control, if_pos control⟩
    · exact .inr ⟨if_neg control, quote, backslash, control⟩

theorem stringBytes_escapeByte (b : UInt8) (acc s : Bytes) :
    stringBytes .plain acc (escapeByte b ++ s) = stringBytes .plain (b :: acc) s := by
  obtain ⟨letter, form, hex, escaped⟩ | ⟨control, form⟩ | ⟨form, quote, backslash, control⟩ :=
    escapeByte_cases b
  · rw [form]
    simp [stringBytes, hex, escaped]
  · have small : b.toNat < 32 := control
    have low : ¬ (0xdc00 ≤ b.toNat ∧ b.toNat ≤ 0xdfff) := by omega
    have high : ¬ (0xd800 ≤ b.toNat ∧ b.toNat ≤ 0xdbff) := by omega
    rw [form]
    simp [stringBytes, hex4?_control control, utf8Reversed_control control, low, high]
  · rw [form]
    simp [stringBytes, quote, backslash, control]

theorem skipString_escapeByte (b : UInt8) (s : Bytes) :
    skipString .plain (escapeByte b ++ s) = skipString .plain s := by
  obtain ⟨letter, form, hex, escaped⟩ | ⟨control, form⟩ | ⟨form, quote, backslash, control⟩ :=
    escapeByte_cases b
  · rw [form]
    simp [skipString, hex, escaped]
  · rw [form]
    simp [skipString, hex4?_control control]
  · rw [form]
    simp [skipString, quote, backslash, control]

theorem stringBytes_flatMap (bs acc rest : Bytes) :
    stringBytes .plain acc (bs.flatMap escapeByte ++ 0x22 :: rest) =
      .ok (acc.reverse ++ bs, rest) := by
  induction bs generalizing acc with
  | nil => simp [stringBytes]
  | cons b bs ih =>
    rw [List.flatMap_cons, List.append_assoc, stringBytes_escapeByte, ih]
    simp

theorem skipString_flatMap (bs rest : Bytes) :
    skipString .plain (bs.flatMap escapeByte ++ 0x22 :: rest) = .ok rest := by
  induction bs with
  | nil => simp [skipString]
  | cons b bs ih => rw [List.flatMap_cons, List.append_assoc, skipString_escapeByte, ih]

theorem encodeString_append (t : String) (rest : Bytes) :
    encodeString t ++ rest = 0x22 :: ((Bytes.ofText t).flatMap escapeByte ++ 0x22 :: rest) := by
  simp [encodeString]

/-- A written string is read as its text, from behind the opening quote. -/
theorem readString_encode (t : String) (rest : Bytes) :
    readString ((Bytes.ofText t).flatMap escapeByte ++ 0x22 :: rest) = .ok (t, rest) := by
  simp [readString, stringBytes_flatMap, Bytes.text?_ofText]

/-- A written string is passed over, from behind the opening quote. -/
theorem skipString_encode (t : String) (rest : Bytes) :
    skipString .plain ((Bytes.ofText t).flatMap escapeByte ++ 0x22 :: rest) = .ok rest :=
  skipString_flatMap _ rest

end Courier.Json
