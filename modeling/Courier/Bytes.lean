/-!
# Byte strings

Message payloads and documents travel as byte strings. A byte string is a list of bytes; the
text it carries, if it carries any, is its UTF-8 reading.

## Main definitions

* `Bytes`: a byte string.
* `Bytes.ofText`, `Bytes.text?`: the UTF-8 form of a text, and the text of a byte string.

## Main results

* `Bytes.text?_ofText`: the UTF-8 form of a text reads back as that text.
* `Bytes.ofText_ofList`: the UTF-8 form of a text is made of those of its characters.
-/

namespace Courier

/-- A byte string. -/
abbrev Bytes := List UInt8

namespace Bytes

/-- The UTF-8 form of a text. -/
def ofText (s : String) : Bytes :=
  s.toByteArray.data.toList

/-- The text whose UTF-8 form is `b`; `none` when `b` is not UTF-8. -/
def text? (b : Bytes) : Option String :=
  String.fromUTF8? ⟨b.toArray⟩

theorem text?_ofText (s : String) : text? (ofText s) = some s := by
  have h : (⟨(ofText s).toArray⟩ : ByteArray) = s.toByteArray := by simp [ofText]
  simp [text?, String.fromUTF8?, h, s.isValidUTF8, String.fromUTF8]

theorem ofText_ofList (cs : List Char) :
    ofText (String.ofList cs) = cs.flatMap String.utf8EncodeChar := by
  simp [ofText, String.ofList, List.utf8Encode]

end Bytes

end Courier
